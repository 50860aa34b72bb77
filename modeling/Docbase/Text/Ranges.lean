/-!
# Sets of characters given by ranges

A character property is kept as the list of its maximal runs of code points, in ascending order.

* `Ranges.contains`: membership of a character.
-/

namespace Docbase.Text

/-- Maximal runs of code points, both ends included. -/
abbrev Ranges := List (Nat × Nat)

/-- The character lies in one of the runs. -/
def Ranges.contains (runs : Ranges) (c : Char) : Bool :=
  runs.any fun run => run.1 ≤ c.toNat && c.toNat ≤ run.2

end Docbase.Text
