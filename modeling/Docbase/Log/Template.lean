import Docbase.Log.Place

/-!
# Message templates

A template holds places for values, each behind a percent sign; `%%` stands for the sign itself. A
single mapping can also fill the places by name, as `%(name)s`. A star in the stead of a width or a
precision takes it from the values.

* `Template.fill`: the message of a template and its values. A template without values is a message
  already.
-/

namespace Docbase.Log.Template

/-- What fills the places of a template: the values that are left, and the mapping that names
others. -/
structure Filling where
  values : List Value
  names : Option Entries := none

/-- The next value, and the filling without it. -/
def Filling.next (f : Filling) : Except Misuse (Value × Filling) :=
  match f.values with
  | [] => .error .wrongType
  | v :: vs => .ok (v, { f with values := vs })

/-- The filling whose next value is that of a name. -/
def Filling.named (f : Filling) (name : String) : Except Misuse Filling :=
  match f.names with
  | none => .error .wrongType
  | some es =>
    match Entries.get? es (.str name) with
    | some v => .ok { f with values := [v] }
    | none => .error .missingKey

/-- The name between brackets, and what follows them; brackets inside it come in pairs. -/
def placeName (inner : Nat) : List Char → Option (List Char × List Char)
  | [] => none
  | c :: cs =>
    if c = ')' && inner = 0 then some ([], cs)
    else
      let inner := if c = '(' then inner + 1 else if c = ')' then inner - 1 else inner
      (placeName inner cs).map fun (name, rest) => (c :: name, rest)

/-- The marks at the start of a place, and what follows them. -/
def readMarks (marks : Marks) : List Char → Marks × List Char
  | [] => (marks, [])
  | c :: cs =>
    match marks.add? c with
    | some marks => readMarks marks cs
    | none => (marks, c :: cs)

/-- A number of decimal digits, zero if there are none, and what follows it. -/
def readNumber (cs : List Char) : Nat × List Char :=
  ((cs.takeWhile Char.isDigit).foldl (fun n c => 10 * n + (c.toNat - '0'.toNat)) 0,
    cs.dropWhile Char.isDigit)

/-- The greatest width. -/
def widthLimit : Nat := 9223372036854775807

/-- The greatest precision. -/
def precisionLimit : Nat := 2147483647

/-- A width or a precision, with the filling and the text behind it. A star takes it from the
values. -/
def readAmount (limit : Nat) (f : Filling) (cs : List Char) :
    Except Misuse (Int × Filling × List Char) :=
  match cs with
  | '*' :: cs => do
    let (v, f) ← f.next
    match v with
    | .int i => if limit < i.natAbs then throw .numberTooLarge else pure (i, f, cs)
    | .bool b => pure (if b then 1 else 0, f, cs)
    | _ => throw .wrongType
  | cs =>
    let (n, rest) := readNumber cs
    if limit < n then .error .badNumber else .ok (n, f, rest)

/-- The precision of a place, if it has one. -/
def readPrecision (f : Filling) (cs : List Char) :
    Except Misuse (Option Nat × Filling × List Char) :=
  match cs with
  | '.' :: cs => do
    let (n, f, rest) ← readAmount precisionLimit f cs
    pure (some n.toNat, f, rest)
  | cs => .ok (none, f, cs)

/-- What follows a mark of size, which says nothing. -/
def skipSize : List Char → List Char
  | 'h' :: cs | 'l' :: cs | 'L' :: cs => cs
  | cs => cs

/-- The filling with the value of the name at the start of a place, and what follows the name. -/
def readName (f : Filling) (cs : List Char) : Except Misuse (Filling × List Char) :=
  match cs with
  | '(' :: cs =>
    if f.names.isNone then .error .wrongType
    else
      match placeName 0 cs with
      | none => .error .badNumber
      | some (name, rest) => do
        let f ← f.named (String.ofList name)
        pure (f, rest)
  | cs => .ok (f, cs)

/-- The text that stands for a place, with the filling and the template behind it. -/
def writePlace (f : Filling) (cs : List Char) :
    Except Misuse (List Char × Filling × List Char) := do
  let (f, cs) ← readName f cs
  let (marks, cs) := readMarks {} cs
  let (width, f, cs) ← readAmount widthLimit f cs
  let marks := if width < 0 then { marks with left := true } else marks
  let (precision, f, cs) ← readPrecision f cs
  match skipSize cs with
  | [] => throw .badNumber
  | letter :: rest =>
    let (v, f) ← f.next
    let text ← Place.write ⟨marks, width.natAbs, precision, letter⟩ v
    pure (text, f, rest)

/-- The message of a template, in at most so many steps. -/
def fillFrom : Nat → Filling → List Char → Except Misuse (List Char)
  | 0, _, _ => .ok []
  | _ + 1, f, [] =>
    if f.values.isEmpty || f.names.isSome then .ok [] else .error .wrongType
  | steps + 1, f, '%' :: '%' :: cs => do
    let message ← fillFrom steps f cs
    pure ('%' :: message)
  | steps + 1, f, '%' :: cs => do
    let (text, f, rest) ← writePlace f cs
    let message ← fillFrom steps f rest
    pure (text ++ message)
  | steps + 1, f, c :: cs => do
    let message ← fillFrom steps f cs
    pure (c :: message)

/-- The message of a template and its values. -/
def fill (template : Value) (values : List Value) : Except Misuse String :=
  let cs := template.text.toList
  match values with
  | [] => .ok template.text
  | [.mapping (e :: es)] =>
    (fillFrom (cs.length + 1) ⟨[.mapping (e :: es)], some (e :: es)⟩ cs).map String.ofList
  | vs => (fillFrom (cs.length + 1) ⟨vs, none⟩ cs).map String.ofList

end Docbase.Log.Template
