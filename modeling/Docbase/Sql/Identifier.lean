import Docbase.Error

/-!
# Bare identifiers

Names that stand in SQL without quotes: an ASCII letter or underscore, then letters, digits and
underscores, and at most one line feed at the end.

* `Identifier.ofText`: the identifier of a text, or the refusal.
* `Identifier.ofValue`: the same for any value; a value that is no text and not empty has no
  answer at all.
-/

namespace Docbase.Sql

/-- An ASCII letter or an underscore. -/
def isNameStart (c : Char) : Bool := c.isAlpha || c == '_'

/-- An ASCII letter or digit or an underscore. -/
def isNameChar (c : Char) : Bool := c.isAlphanum || c == '_'

/-- The rest of an identifier. -/
def isNameRest : List Char → Bool
  | [] => true
  | ['\n'] => true
  | c :: cs => isNameChar c && isNameRest cs

/-- The characters form an identifier. -/
def isIdentifier : List Char → Bool
  | [] => false
  | c :: cs => isNameStart c && isNameRest cs

/-- A name that needs no quotes. -/
structure Identifier where
  text : String
  valid : isIdentifier text.toList = true
  deriving DecidableEq

namespace Identifier

/-- The identifier of a text; the context goes into the report on a refusal. -/
def ofText (s : String) (context : List (String × Value)) : Except Cause Identifier :=
  if h : isIdentifier s.toList then .ok ⟨s, h⟩ else .error (.invalidIdentifier (.str s) context)

/-- A value is an identifier. Values that count as empty are none. -/
def isValue (v : Value) : Except Misuse Bool :=
  match v with
  | .str s => .ok (isIdentifier s.toList)
  | v => if v.truthy then .error .wrongType else .ok false

/-- The identifier of any value. Values that count as empty are refused like texts. -/
def ofValue (v : Value) (context : List (String × Value)) : Except Error Identifier :=
  match v with
  | .str s => refuse (ofText s context)
  | v =>
    match isValue v with
    | .error m => .error (.misuse m)
    | .ok _ => .error (.refused (.invalidIdentifier v context))

/-- The names that a report gives a meaning of its own. -/
def reservedDetails : List String := ["field", "message", "self"]

/-- The value if it is an identifier. The context may not use the names that the report uses. -/
def check (v : Value) (context : List (String × Value)) : Except Error Value := do
  if context.any (·.1 == "name") then throw (.misuse .wrongType)
  match isValue v with
  | .error m => throw (.misuse m)
  | .ok true => pure v
  | .ok false =>
    if context.any (reservedDetails.contains ·.1) then throw (.misuse .wrongType)
    throw (.refused (.invalidIdentifier v context))

end Identifier

end Docbase.Sql
