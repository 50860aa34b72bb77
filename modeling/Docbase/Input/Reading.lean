import Docbase.Input.Checked
import Docbase.Text.Blank
import Docbase.Text.Digit

/-!
# Reading the parts of a declaration

The forms in which a caller may give a text, a truth value or a whole number.

* `readText`: a text, or bytes that are one.
* `readBool`: a truth value, the numbers 0 and 1, or one of the usual words.
* `readInt`: a whole number, also as a real number or as a text.
-/

namespace Docbase.Input

/-- The text that bytes stand for in UTF-8. -/
def utf8Text? (bs : List UInt8) : Option String := String.fromUTF8? ⟨bs.toArray⟩

/-- A text, or bytes that are one. -/
def readText : Value → Checked String
  | .str s => .ok s
  | .bytes bs =>
    match utf8Text? bs with
    | some s => .ok s
    | none => .fault .notUtf8
  | _ => .fault .notText

/-- A text that may be absent. -/
def readText? : Value → Checked (Option String)
  | .null => .ok none
  | v => (readText v).map some

/-- The words for false. -/
def falseWords : List String := ["0", "off", "f", "false", "n", "no"]

/-- The words for true. -/
def trueWords : List String := ["1", "on", "t", "true", "y", "yes"]

/-- A text as a truth value; the case of ASCII letters does not matter. -/
def boolOfText (s : String) : Checked Bool :=
  let word := String.ofList (s.toList.map Char.toLower)
  if falseWords.contains word then .ok false
  else if trueWords.contains word then .ok true
  else .fault .unreadableBool

/-- A number as a truth value. -/
def boolOfInt (i : Int) : Checked Bool :=
  if i = 0 then .ok false else if i = 1 then .ok true else .fault .unreadableBool

/-- The bound of the whole numbers of 64 bits with a sign. -/
def wordBound : Int := 9223372036854775808

/-- A real number as a whole one. It has to lie strictly between the bounds of 64 bits. -/
def intOfFloat (x : Binary64) : Checked Int :=
  match x.truncate? with
  | some i =>
    if !x.sameInt i then .fault .fractionalInt
    else if -wordBound < i && i < wordBound then .ok i
    else .fault .hugeInt
  | none => .fault .notFinite

/-- A truth value in one of its forms. Numbers that are not whole or need more than 64 bits are of
the wrong kind. -/
def readBool : Value → Checked Bool
  | .bool b => .ok b
  | .int i => if -wordBound ≤ i && i < wordBound then boolOfInt i else .fault .notBool
  | .float x =>
    match intOfFloat x with
    | .ok i => boolOfInt i
    | _ => .fault .notBool
  | .str s => boolOfText s
  | .bytes bs =>
    match utf8Text? bs with
    | some s => boolOfText s
    | none => .fault .unreadableBool
  | _ => .fault .notBool

/-- What came of reading digits. -/
inductive Digits
  | whole (i : Int)
  | tooMany
  | malformed

/-- Digits behind a sign of so many characters, which count as digits do; zero alone starts with a
zero. -/
def readDigits (signLength : Nat) (cs : List Char) : Digits :=
  let digits := cs.takeWhile Char.isDigit
  if digits = ['0'] then if cs = ['0'] then .whole 0 else .malformed
  else if digits.isEmpty || digits.head? = some '0' then .malformed
  else if digitLimit < signLength + digits.length then .tooMany
  else if digits.length = cs.length then .whole (Nat.ofDigitChars 10 digits 0) else .malformed

/-- Digits with an optional minus sign. -/
def readSigned : List Char → Digits
  | '-' :: cs =>
    match readDigits 1 cs with
    | .whole i => .whole (-i)
    | d => d
  | cs => readDigits 0 cs

/-- White space around numbers: all but the four separators of ASCII. -/
def isNumberBlank (c : Char) : Bool :=
  Text.isBlank c && !('\x1c' ≤ c && c ≤ '\x1f')

/-- A number without the blanks around it. -/
def trimNumber (cs : List Char) : List Char :=
  ((cs.dropWhile isNumberBlank).reverse.dropWhile isNumberBlank).reverse

/-- What follows the leading zeros, which may be grouped by underscores; the last of them stays if
nothing but a point follows. -/
def afterZeros (last : Char) : List Char → Option (List Char)
  | [] => some [last]
  | c :: cs =>
    if c = '0' || c = '_' then afterZeros c cs
    else if c = '.' then some (last :: c :: cs)
    else if c.isDigit || c = '-' then some (c :: cs)
    else none

/-- A number without leading zeros. -/
def dropZeros? : List Char → Option (List Char)
  | '0' :: cs => afterZeros '0' cs
  | c :: cs => if c.isDigit || c = '-' then some (c :: cs) else none
  | [] => none

/-- A number without a point that only zeros follow, at least one of them. -/
def dropFraction (cs : List Char) : List Char :=
  match cs.dropWhile (· != '.') with
  | '.' :: '0' :: zeros => if zeros.all (· == '0') then cs.takeWhile (· != '.') else cs
  | _ => cs

/-- Two underscores stand side by side. -/
def hasDoubleUnderscore : List Char → Bool
  | '_' :: '_' :: _ => true
  | _ :: cs => hasDoubleUnderscore cs
  | [] => false

/-- A number without single underscores inside. -/
def dropUnderscores (cs : List Char) : List Char :=
  if cs.head? == some '_' || cs.getLast? == some '_' || hasDoubleUnderscore cs then cs
  else cs.filter (· != '_')

/-- A number without a plus sign. -/
def dropPlus? : List Char → Option (List Char)
  | '+' :: '-' :: _ => none
  | '+' :: cs => some cs
  | cs => some cs

/-- A number in its plain spelling: without blanks, plus sign, leading zeros, an empty fraction and
underscores. -/
def plainSpelling? (cs : List Char) : Option (List Char) := do
  let plain (cs : List Char) : Option (List Char) :=
    (dropZeros? cs).map fun cs => dropUnderscores (dropFraction cs)
  match ← dropPlus? (trimNumber cs) with
  | '-' :: cs => (plain cs).map ('-' :: ·)
  | cs => plain cs

/-- A whole number in one of its spellings. -/
def intOfChars (cs : List Char) : Digits :=
  match readSigned cs with
  | .malformed => ((plainSpelling? cs).map readSigned).getD .malformed
  | d => d

/-- A text as a whole number. -/
def intOfText (s : String) : Checked Int :=
  match intOfChars s.toList with
  | .whole i => .ok i
  | .tooMany => .fault .hugeInt
  | .malformed => .fault .unreadableInt

/-- A whole number in one of its forms. -/
def readInt : Value → Checked Int
  | .bool b => .ok (if b then 1 else 0)
  | .int i => .ok i
  | .float x => intOfFloat x
  | .str s => intOfText s
  | .bytes bs =>
    match utf8Text? bs with
    | some s => intOfText s
    | none => .fault .unreadableInt
  | _ => .fault .notInt

end Docbase.Input
