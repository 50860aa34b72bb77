/-!
# Searching texts

* `occurs`: the characters stand somewhere in a row inside others.
-/

namespace Docbase.Text

/-- The characters stand in a row inside the others. -/
def occurs (piece : List Char) : List Char → Bool
  | [] => piece.isEmpty
  | c :: cs => piece.isPrefixOf (c :: cs) || occurs piece cs

/-- The text stands inside the other. -/
def contains (s piece : String) : Bool := occurs piece.toList s.toList

end Docbase.Text
