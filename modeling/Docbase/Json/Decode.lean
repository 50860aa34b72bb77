import Docbase.Value

/-!
# Values from JSON text

Reads JSON, with `NaN`, `Infinity` and `-Infinity` as numbers besides. Of two members of one name
the later value wins, in the place of the earlier.

* `Json.decode`: the value of a text, or why there is none. A whole number may be refused for the
  number of its digits.
-/

namespace Docbase.Json

/-- Why a text has no value. -/
inductive Fault
  | malformed
  | tooManyDigits
  deriving DecidableEq, Repr

/-- The rest of a text behind white space. -/
def skipBlanks : List Char → List Char
  | c :: rest =>
    if c = ' ' || c = '\t' || c = '\n' || c = '\r' then skipBlanks rest else c :: rest
  | [] => []

/-- The value of a hexadecimal digit. -/
def hexValue? (c : Char) : Option Nat :=
  if c.isDigit then some (c.toNat - '0'.toNat)
  else if 'a' ≤ c && c ≤ 'f' then some (c.toNat - 'a'.toNat + 10)
  else if 'A' ≤ c && c ≤ 'F' then some (c.toNat - 'A'.toNat + 10)
  else none

/-- The number written by four hexadecimal digits. -/
def hexUnit? (a b c d : Char) : Option Nat := do
  let a ← hexValue? a
  let b ← hexValue? b
  let c ← hexValue? c
  let d ← hexValue? d
  some (((a * 16 + b) * 16 + c) * 16 + d)

/-- The character of an escape of one letter. -/
def simpleEscape? (c : Char) : Option Char :=
  if c = '"' || c = '\\' || c = '/' then some c
  else if c = 'n' then some '\n'
  else if c = 'r' then some '\r'
  else if c = 't' then some '\t'
  else if c = 'b' then some (Char.ofNat 8)
  else if c = 'f' then some (Char.ofNat 12)
  else none

/-- The unit opens a surrogate pair. -/
def isHighSurrogate (unit : Nat) : Bool := 0xD800 ≤ unit && unit < 0xDC00

/-- The unit closes a surrogate pair. -/
def isLowSurrogate (unit : Nat) : Bool := 0xDC00 ≤ unit && unit < 0xE000

/-- The character of a surrogate pair. -/
def ofSurrogates (high low : Nat) : Char :=
  Char.ofNat (0x10000 + (high - 0xD800) * 0x400 + (low - 0xDC00))

/-- A character in front of what is read next. -/
def prepend (c : Char) (tail : Except Fault (List Char × List Char)) :
    Except Fault (List Char × List Char) :=
  tail.map fun (cs, rest) => (c :: cs, rest)

/-- The characters of a string up to its closing quote, and the rest of the text. Control
characters and unpaired surrogates are refused. -/
def stringBody : List Char → Except Fault (List Char × List Char)
  | '"' :: rest => .ok ([], rest)
  | '\\' :: 'u' :: a :: b :: c :: d :: rest =>
    match hexUnit? a b c d with
    | none => .error .malformed
    | some unit =>
      if isHighSurrogate unit then
        match rest with
        | '\\' :: 'u' :: a' :: b' :: c' :: d' :: rest' =>
          match hexUnit? a' b' c' d' with
          | some low =>
            if isLowSurrogate low then prepend (ofSurrogates unit low) (stringBody rest')
            else .error .malformed
          | none => .error .malformed
        | _ => .error .malformed
      else if isLowSurrogate unit then .error .malformed
      else prepend (Char.ofNat unit) (stringBody rest)
  | '\\' :: e :: rest =>
    match simpleEscape? e with
    | some c => prepend c (stringBody rest)
    | none => .error .malformed
  | c :: rest => if c.toNat < 32 || c = '\\' then .error .malformed else prepend c (stringBody rest)
  | [] => .error .malformed

/-- The digits of the whole part of a number: a single zero, or digits that start with no zero. -/
def wholeDigits? : List Char → Option (List Char × List Char)
  | '0' :: rest => some (['0'], rest)
  | c :: rest => if c.isDigit then some ((c :: rest).span Char.isDigit) else none
  | [] => none

/-- The digits behind a decimal point, if a digit follows it. -/
def fractionDigits (cs : List Char) : Option (List Char × List Char) :=
  match cs with
  | '.' :: d :: rest => if d.isDigit then some ((d :: rest).span Char.isDigit) else none
  | _ => none

/-- The exponent of a number, if digits follow its letter and sign. -/
def exponentPart (cs : List Char) : Option (Int × List Char) :=
  match cs with
  | e :: rest =>
    if e = 'e' || e = 'E' then
      let (negative, digits) :=
        match rest with
        | '-' :: r => (true, r)
        | '+' :: r => (false, r)
        | r => (false, r)
      let (ds, rest) := digits.span Char.isDigit
      if ds.isEmpty then none
      else
        let n : Int := Nat.ofDigitChars 10 ds 0
        some (if negative then -n else n, rest)
    else none
  | [] => none

/-- A number behind its sign. Without fraction and exponent it is a whole number. -/
def number (limit : Option Nat) (negative : Bool) (cs : List Char) :
    Except Fault (Value × List Char) :=
  match wholeDigits? cs with
  | none => .error .malformed
  | some (whole, rest) =>
    let (fraction, rest') := (fractionDigits rest).getD ([], rest)
    match fraction, exponentPart rest' with
    | [], none =>
      if limit.any (· < whole.length) then .error .tooManyDigits
      else
        let n : Int := Nat.ofDigitChars 10 whole 0
        .ok (.int (if negative then -n else n), rest')
    | _, exponent =>
      let (power, rest'') := exponent.getD (0, rest')
      let digits := Nat.ofDigitChars 10 (whole ++ fraction) 0
      .ok (.float (.ofDecimal negative digits (power - fraction.length)), rest'')

/-- A value that is a word, a number or a string. -/
def scalar (limit : Option Nat) (cs : List Char) : Except Fault (Value × List Char) :=
  match cs with
  | '"' :: rest => (stringBody rest).map fun (body, rest) => (.str (String.ofList body), rest)
  | 'n' :: 'u' :: 'l' :: 'l' :: rest => .ok (.null, rest)
  | 't' :: 'r' :: 'u' :: 'e' :: rest => .ok (.bool true, rest)
  | 'f' :: 'a' :: 'l' :: 's' :: 'e' :: rest => .ok (.bool false, rest)
  | 'N' :: 'a' :: 'N' :: rest => .ok (.float .nan, rest)
  | 'I' :: 'n' :: 'f' :: 'i' :: 'n' :: 'i' :: 't' :: 'y' :: rest =>
    .ok (.float (.infinite false), rest)
  | '-' :: 'I' :: 'n' :: 'f' :: 'i' :: 'n' :: 'i' :: 't' :: 'y' :: rest =>
    .ok (.float (.infinite true), rest)
  | '-' :: rest => number limit true rest
  | cs => number limit false cs

mutual

/-- One value at the start of a text, and the rest of the text. The first argument bounds the
number of nested steps. -/
def value (limit : Option Nat) : Nat → List Char → Except Fault (Value × List Char)
  | 0, _ => .error .malformed
  | steps + 1, '[' :: rest =>
    match skipBlanks rest with
    | ']' :: rest => .ok (.list [], rest)
    | rest => (items limit steps rest).map fun (vs, rest) => (.list vs, rest)
  | steps + 1, '\x7b' :: rest =>
    match skipBlanks rest with
    | '\x7d' :: rest => .ok (.mapping [], rest)
    | rest => (members limit steps [] rest).map fun (es, rest) => (.mapping es, rest)
  | _ + 1, cs => scalar limit cs

/-- The elements of a list up to its bracket. -/
def items (limit : Option Nat) : Nat → List Char → Except Fault (List Value × List Char)
  | 0, _ => .error .malformed
  | steps + 1, cs => do
    let (v, rest) ← value limit steps cs
    match skipBlanks rest with
    | ']' :: rest => .ok ([v], rest)
    | ',' :: rest =>
      let (vs, rest) ← items limit steps (skipBlanks rest)
      .ok (v :: vs, rest)
    | _ => .error .malformed

/-- The members of an object up to its brace, behind those already read. -/
def members (limit : Option Nat) : Nat → Entries → List Char → Except Fault (Entries × List Char)
  | 0, _, _ => .error .malformed
  | steps + 1, read, '"' :: cs => do
    let (name, rest) ← stringBody cs
    match skipBlanks rest with
    | ':' :: rest =>
      let (v, rest) ← value limit steps (skipBlanks rest)
      let read := Entries.put read (.str (String.ofList name)) v
      match skipBlanks rest with
      | '\x7d' :: rest => .ok (read, rest)
      | ',' :: rest => members limit steps read (skipBlanks rest)
      | _ => .error .malformed
    | _ => .error .malformed
  | _ + 1, _, _ => .error .malformed

end

/-- The value of a text. With a limit, a whole number of more digits is refused. -/
def decode (limit : Option Nat) (text : String) : Except Fault Value :=
  let cs := text.toList
  match value limit (2 * cs.length + 2) (skipBlanks cs) with
  | .error fault => .error fault
  | .ok (v, rest) => if (skipBlanks rest).isEmpty then .ok v else .error .malformed

end Docbase.Json
