import Docbase.Error

/-!
# Calls

The arguments of a call, given by place and by name, and the parameters that they are for.

* `Call.arg?`: the argument for a parameter.
* `Call.check`: every parameter has one argument, and no argument is left over.
-/

namespace Docbase

/-- The arguments of a call. -/
structure Call (α : Type) where
  /-- The arguments that are given by place. -/
  args : List α
  /-- The arguments that are given by name. -/
  named : List (String × α) := []

/-- The parameters of an operation. -/
structure Signature where
  /-- The names of the parameters, in their places. -/
  names : List String
  /-- So many of the last parameters may be left out. -/
  optional : Nat := 0
  /-- Any number of arguments may follow. -/
  more : Bool := false

namespace Call

variable {α : Type}

/-- The argument for a parameter, by its place or else by its name. -/
def arg? (c : Call α) (place : Nat) (name : String) : Option α :=
  (c.args[place]?).or ((c.named.find? (·.1 == name)).map (·.2))

/-- The arguments fit the parameters. -/
def fits (c : Call α) (s : Signature) : Bool :=
  let byPlace := s.names.take c.args.length
  let byName := c.named.map (·.1)
  let needed := s.names.take (s.names.length - s.optional)
  (c.args.length ≤ s.names.length || s.more)
    && byName.all (fun n => s.names.contains n && !byPlace.contains n)
    && needed.all fun n => byPlace.contains n || byName.contains n

/-- Every parameter has one argument, and no argument is left over. -/
def check (c : Call α) (s : Signature) : Except Misuse Unit :=
  if c.fits s then .ok () else .error .wrongType

end Call

end Docbase
