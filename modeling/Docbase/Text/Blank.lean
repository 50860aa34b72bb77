import Docbase.Text.Ranges

/-!
# White space

* `isBlank`: the characters with bidirectional type `WS`, `B` or `S` or category `Zs`.
* `strip`: a text without the white space at its two ends.
-/

namespace Docbase.Text

/-- The runs of white space characters. -/
def blankRanges : Ranges := [
  (0x9, 0xD), (0x1C, 0x20), (0x85, 0x85), (0xA0, 0xA0), (0x1680, 0x1680), (0x2000, 0x200A),
  (0x2028, 0x2029), (0x202F, 0x202F), (0x205F, 0x205F), (0x3000, 0x3000)]

/-- White space, also outside ASCII. -/
def isBlank (c : Char) : Bool := blankRanges.contains c

/-- The characters between the first and the last that is no white space. -/
def stripChars (cs : List Char) : List Char :=
  ((cs.dropWhile isBlank).reverse.dropWhile isBlank).reverse

/-- A text without the white space at its two ends. -/
def strip (s : String) : String := String.ofList (stripChars s.toList)

end Docbase.Text
