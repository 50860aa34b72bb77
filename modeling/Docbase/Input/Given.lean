import Docbase.Input.Checked

/-!
# What a caller gives

Trees are built from parts that the caller hands in. A part should be a node of the family, but may
be any value, a node of another family among them.

* `Given.read`: a given part as a node. A mapping counts as a node that says nothing.
-/

namespace Docbase

/-- What a caller gives where a node is due. -/
inductive Given (α : Type)
  /-- A node of the family. -/
  | node (a : α)
  /-- Any other value. -/
  | value (v : Value)

namespace Given

variable {α : Type}

/-- The name of the type of what is given. -/
def typeName (name : α → String) : Given α → String
  | node a => name a
  | value v => v.typeName

/-- What is given, as a value. -/
def toValue (value : α → Value) : Given α → Value
  | node a => value a
  | .value v => v

/-- The given part as a node; a mapping is read as the `blank` one. -/
def read (blank : α) : Given α → Checked α
  | node a => .ok a
  | value (.mapping _) => .ok blank
  | value _ => .fault .notNode

end Given

end Docbase
