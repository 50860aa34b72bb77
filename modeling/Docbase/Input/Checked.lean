import Docbase.Error

/-!
# Checked parts of a declaration

A declaration (a filter, an order, an index, the settings) is made of parts. Each part is checked
by itself; the declaration stands if all its parts do.

* `Checked.both`: two parts, in the order in which they are declared. The first refusal of a part
  wins over everything; without one, the faults of all parts are reported together.
-/

namespace Docbase

/-- What came of checking a part: its value, its faults, or a refusal that ends the check. -/
inductive Checked (α : Type)
  | ok (a : α)
  | faulty (faults : List Fault)
  | refused (e : Error)

namespace Checked

variable {α β γ : Type}

/-- A single fault at the part itself. -/
def fault (kind : FaultKind) : Checked α := .faulty [⟨[], kind⟩]

/-- A sound part in another form. -/
def map (f : α → β) : Checked α → Checked β
  | ok a => ok (f a)
  | faulty fs => faulty fs
  | refused e => refused e

/-- A further check of a sound part. -/
def andThen (x : Checked α) (f : α → Checked β) : Checked β :=
  match x with
  | ok a => f a
  | faulty fs => faulty fs
  | refused e => refused e

/-- The faults of a part, seen from what it is a part of. -/
def within (place : Place) : Checked α → Checked α
  | faulty fs => faulty (fs.map fun f => { f with place := place :: f.place })
  | x => x

/-- The part of that name. -/
def named (name : String) (x : Checked α) : Checked α := x.within (.field name)

/-- Two parts, the first declared first. -/
def both : Checked α → Checked β → Checked (α × β)
  | ok a, ok b => ok (a, b)
  | ok _, faulty fs | faulty fs, ok _ => faulty fs
  | faulty fs, faulty gs => faulty (fs ++ gs)
  | refused e, _ => refused e
  | _, refused e => refused e

/-- Parts that are numbered from `start`. -/
def items (check : α → Checked β) (start : Nat) : List α → Checked (List β)
  | [] => ok []
  | a :: as => (((check a).within (.item start)).both (items check (start + 1) as)).map
      fun p => p.1 :: p.2

/-- The part has to pass a test that refuses. -/
def ofExcept : Except Error α → Checked α
  | .ok a => ok a
  | .error e => refused e

/-- The outcome of the whole check. -/
def toExcept : Checked α → Except Error α
  | ok a => .ok a
  | faulty fs => .error (.invalid fs)
  | refused e => .error e

end Checked

end Docbase
