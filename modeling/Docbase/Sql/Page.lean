import Docbase.Error

/-!
# Pages

* `pageValue`: how many rows to skip or to take at most; none if nothing is given.
-/

namespace Docbase.Sql

/-- The names that a report gives a meaning of its own. -/
def takenNames : List String := ["message", "self"]

/-- A number of rows that may be absent. -/
def pageCount? : Value → Option (Option Nat)
  | .null => some none
  | .int (.ofNat n) => some (some n)
  | _ => none

/-- A number of rows, under the name by which a refusal speaks of it. -/
def pageValue (value : Value) (name : String) : Except Error (Option Nat) :=
  match pageCount? value with
  | some count => .ok count
  | none =>
    if takenNames.contains name then .error (.misuse .wrongType)
    else .error (.refused (.invalidPage name value))

end Docbase.Sql
