/-!
# Universally unique identifiers

* `Uuid.parse?`: reads 32 hexadecimal digits with any dashes, in braces or behind `urn:uuid:`.
* `Uuid.text`: the canonical text, 8-4-4-4-12 lower-case digits.
-/

namespace Docbase

/-- A 128-bit identifier, as its 32 hexadecimal digits in lower case. -/
structure Uuid where
  digits : String
  deriving DecidableEq, Repr, Inhabited

namespace Uuid

/-- A hexadecimal digit of either case. -/
def isHexDigit (c : Char) : Bool :=
  c.isDigit || ('a' ≤ c && c ≤ 'f') || ('A' ≤ c && c ≤ 'F')

/-- Reads an identifier in any of its usual spellings. -/
def parse? (s : String) : Option Uuid :=
  let bare := ((s.replace "urn:" "").replace "uuid:" "").toList
  let unbraced := ((bare.dropWhile fun c => c == '\x7b' || c == '\x7d').reverse.dropWhile
    fun c => c == '\x7b' || c == '\x7d').reverse
  let digits := unbraced.filter (· != '-')
  if digits.length == 32 && digits.all isHexDigit then
    some ⟨String.ofList (digits.map Char.toLower)⟩
  else none

/-- The canonical text of an identifier. -/
def text (u : Uuid) : String :=
  let cs := u.digits.toList
  let group (start length : Nat) := String.ofList ((cs.drop start).take length)
  "-".intercalate [group 0 8, group 8 4, group 12 4, group 16 4, group 20 12]

/-- The identifier as a number. -/
def toNat (u : Uuid) : Nat :=
  u.digits.toList.foldl (fun n c =>
    16 * n + (if c.isDigit then c.toNat - '0'.toNat else c.toNat - 'a'.toNat + 10)) 0

end Uuid

end Docbase
