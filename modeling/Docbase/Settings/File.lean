import Docbase.Settings
import Docbase.Text.Blank

/-!
# Settings files

One assignment a line: a name, an equals sign and a value, plain or in quotes. The word `export`
may stand before the name, a comment behind the value, and a value may name others as
`${NAME}`. Lines that are none of this are passed over.

* `Settings.File.parse`: the assignments of a file, in order.
* `Settings.File.resolve`: the texts that they give, with the named values filled in.
-/

namespace Docbase.Settings.File

open Text

/-- A text with line feeds for all ends of lines. -/
def unifyNewlines : List Char → List Char
  | '\r' :: '\n' :: cs => '\n' :: unifyNewlines cs
  | '\r' :: cs => '\n' :: unifyNewlines cs
  | c :: cs => c :: unifyNewlines cs
  | [] => []

/-- White space inside a line. -/
def isInlineBlank (c : Char) : Bool := isBlank c && c != '\n' && c != '\r'

/-- The rest of a text behind the white space of its line. -/
def skipInline (cs : List Char) : List Char := cs.dropWhile isInlineBlank

/-- The rest of a text behind its line. -/
def skipLine (cs : List Char) : List Char := (cs.dropWhile (· != '\n')).drop 1

/-- The rest of a text behind the word `export`, if it stands alone there. -/
def skipExport (cs : List Char) : List Char :=
  let word := "export".toList
  if word.isPrefixOf cs then
    match cs.drop word.length with
    | c :: rest => if isInlineBlank c then skipInline rest else cs
    | [] => cs
  else cs

/-- A quoted text up to its closing quote, and what follows it. A backslash takes the next character
along, so that an escaped quote closes nothing. -/
def quotedBody (mark : Char) : List Char → Option (List Char × List Char)
  | [] => none
  | '\\' :: c :: cs => (quotedBody mark cs).map fun (body, rest) => ('\\' :: c :: body, rest)
  | c :: cs =>
    if c = mark then some ([], cs)
    else (quotedBody mark cs).map fun (body, rest) => (c :: body, rest)

/-- The character of an escape in double quotes. -/
def doubleEscape? (c : Char) : Option Char :=
  if c = '\\' || c = '\'' || c = '"' then some c
  else if c = 'a' then some (Char.ofNat 7)
  else if c = 'b' then some (Char.ofNat 8)
  else if c = 'f' then some (Char.ofNat 12)
  else if c = 'n' then some '\n'
  else if c = 'r' then some '\r'
  else if c = 't' then some '\t'
  else if c = 'v' then some (Char.ofNat 11)
  else none

/-- The character of an escape in single quotes. -/
def singleEscape? (c : Char) : Option Char :=
  if c = '\\' || c = '\'' then some c else none

/-- A quoted text with its escapes resolved; a backslash before anything else stays. -/
def unescape (escape? : Char → Option Char) : List Char → List Char
  | '\\' :: c :: cs =>
    match escape? c with
    | some d => d :: unescape escape? cs
    | none => '\\' :: unescape escape? (c :: cs)
  | c :: cs => c :: unescape escape? cs
  | [] => []

/-- A plain value without the comment behind it: a number sign after white space. -/
def dropComment : List Char → List Char
  | [] => []
  | c :: cs =>
    if isBlank c && ((c :: cs).dropWhile isBlank).head? == some '#' then [] else c :: dropComment cs

/-- A value without the white space at its end. -/
def dropBlankEnd (cs : List Char) : List Char := (cs.reverse.dropWhile isBlank).reverse

/-- A plain value up to the end of its line, without comment and white space around it. -/
def plainValue (cs : List Char) : List Char × List Char :=
  (dropBlankEnd (skipInline (dropComment (cs.takeWhile (· != '\n')))), cs.dropWhile (· != '\n'))

/-- The value at the start of a text, and the rest of the text. -/
def value (cs : List Char) : Option (List Char × List Char) :=
  match skipInline cs with
  | '\'' :: rest => (quotedBody '\'' rest).map fun (body, rest) => (unescape singleEscape? body, rest)
  | '"' :: rest => (quotedBody '"' rest).map fun (body, rest) => (unescape doubleEscape? body, rest)
  | _ => some (plainValue cs)

/-- A character of a plain name. -/
def isNameChar (c : Char) : Bool := c != '=' && c != '#' && !isBlank c

/-- The name at the start of a text, if any, and the rest; a comment has no name. -/
def name (cs : List Char) : Option (Option (List Char) × List Char) :=
  match cs with
  | '#' :: _ => some (none, cs)
  | '\'' :: rest =>
    let body := rest.takeWhile (· != '\'')
    match rest.dropWhile (· != '\'') with
    | _ :: behind => if body.isEmpty then none else some (some body, behind)
    | [] => none
  | _ =>
    let body := cs.takeWhile isNameChar
    if body.isEmpty then none else some (some body, cs.dropWhile isNameChar)

/-- The rest of a text behind the end of a line, which may hold a comment. -/
def lineEnd (cs : List Char) : Option (List Char) :=
  let behind := match skipInline cs with
    | '#' :: rest => rest.dropWhile (· != '\n')
    | _ => cs
  match skipInline behind with
  | [] => some []
  | '\n' :: rest => some rest
  | _ => none

/-- An assignment: a name and its value, if it has one. -/
abbrev Binding := String × Option String

/-- The outcome of reading a line: an assignment or nothing, and the rest of the text. -/
abbrev Step := Option Binding × List Char

/-- The assignment of a name whose value, if any, stands at the start of a text. -/
def binding (key : Option (List Char)) (cs : List Char) : Step :=
  let give (v : Option (List Char)) : Option Binding :=
    key.map fun k => (String.ofList k, v.map String.ofList)
  match skipInline cs with
  | '=' :: rest =>
    match value rest with
    | none => (none, skipLine rest)
    | some (v, rest) =>
      match lineEnd rest with
      | some rest => (give (some v), rest)
      | none => (none, skipLine rest)
  | rest =>
    match lineEnd rest with
    | some rest => (give none, rest)
    | none => (none, skipLine rest)

/-- The first assignment of a text, and the rest of the text. -/
def step (cs : List Char) : Step :=
  let start := skipExport cs
  match name start with
  | none => (none, skipLine start)
  | some (key, rest) => binding key rest

/-- The assignments of a text that takes at most so many steps. -/
def bindings : Nat → List Char → List Binding
  | 0, _ => []
  | steps + 1, cs =>
    match cs.dropWhile isBlank with
    | [] => []
    | start =>
      let (b, rest) := step start
      b.toList ++ bindings steps rest

/-- The assignments of a file, in order. -/
def parse (text : String) : List Binding :=
  let cs := unifyNewlines text.toList
  bindings (cs.length + 1) cs

/-- A text of values to be filled in, up to the end of the next of them. -/
def reference (cs : List Char) : Option (List Char × Option (List Char) × List Char) :=
  match cs with
  | '$' :: '\x7b' :: rest =>
    let name := rest.takeWhile fun c => c != '\x7d' && c != ':'
    match rest.dropWhile fun c => c != '\x7d' && c != ':' with
    | '\x7d' :: behind => some (name, none, behind)
    | ':' :: '-' :: behind =>
      match behind.dropWhile (· != '\x7d') with
      | _ :: after => some (name, some (behind.takeWhile (· != '\x7d')), after)
      | [] => none
    | _ => none
  | _ => none

/-- A text with the named values filled in, in at most so many steps. -/
def fill (lookup : String → Option String) : Nat → List Char → List Char
  | 0, _ => []
  | _ + 1, [] => []
  | steps + 1, c :: cs =>
    match reference (c :: cs) with
    | some (name, default, rest) =>
      ((lookup (String.ofList name)).map String.toList).getD (default.getD [])
        ++ fill lookup steps rest
    | none => c :: fill lookup steps cs

/-- Assignments with one more; a name that is assigned again keeps its place. -/
def assign : List Binding → Binding → List Binding
  | [], b => [b]
  | d :: rest, b => if d.1 = b.1 then b :: rest else d :: assign rest b

/-- The value of a name among assignments made before, or else in the environment. A name that was
assigned nothing counts as empty. -/
def lookup (environment : Named) (done : List Binding) (name : String) : Option String :=
  match done.find? (·.1 == name) with
  | some (_, v) => some (v.getD "")
  | none => (environment.reverse.find? (·.1 == name)).map (·.2)

/-- Assignments with the named values filled in, one after the other. -/
def resolveFrom (environment : Named) (done : List Binding) : List Binding → List Binding
  | [] => done
  | (name, v) :: rest =>
    let filled := v.map fun s =>
      String.ofList (fill (lookup environment done) (s.length + 1) s.toList)
    resolveFrom environment (assign done (name, filled)) rest

/-- The last spelling of each name counts; one without a value gives nothing. -/
def texts (bindings : List Binding) : Named :=
  let folded := bindings.map fun b => (lower b.1, b.2)
  folded.filterMap fun b =>
    match folded.reverse.find? (·.1 == b.1) with
    | some (_, some v) => some (b.1, v)
    | _ => none

/-- The texts that the assignments of a file give. -/
def resolve (environment : Named) (bindings : List Binding) : Named :=
  texts (resolveFrom environment [] bindings)

/-- The texts that a file gives. -/
def read (environment : Named) (text : String) : Named := resolve environment (parse text)

end Docbase.Settings.File
