/-!
# Splitting texts

* `splitChars`: the pieces between the occurrences of a character, at least one.
* `splitFirst`: the pieces before and behind the first occurrence.
-/

namespace Docbase.Text

/-- The pieces between the occurrences of a character. -/
def splitChars (mark : Char) : List Char → List (List Char)
  | [] => [[]]
  | c :: cs =>
    if c = mark then [] :: splitChars mark cs
    else
      match splitChars mark cs with
      | [] => [[c]]
      | piece :: pieces => (c :: piece) :: pieces

/-- The pieces of a text between the occurrences of a character. -/
def split (mark : Char) (s : String) : List String :=
  (splitChars mark s.toList).map String.ofList

/-- The pieces before and behind the first occurrence of a character. -/
def splitFirst (mark : Char) (s : String) : Option (String × String) :=
  let cs := s.toList
  if cs.contains mark then
    some (String.ofList (cs.takeWhile (· != mark)),
      String.ofList ((cs.dropWhile (· != mark)).drop 1))
  else none

end Docbase.Text
