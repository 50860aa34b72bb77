import Docbase.Error
import Docbase.Text.Blank
import Docbase.Text.Digit

/-!
# Whole numbers from values

* `wholeNumber`: a value as a whole number: a real number loses its fraction, a text is read as
  digits of any script, with an optional sign, single underscores between digits and blanks around;
  too many digits are refused.
-/

namespace Docbase

/-- The number written by digits with single underscores between them, behind a number read so
far. -/
def digitsFrom (n : Nat) : List Char → Option Nat
  | [] => some n
  | '_' :: c :: cs => (Text.digitValue? c).bind fun d => digitsFrom (10 * n + d) cs
  | c :: cs => (Text.digitValue? c).bind fun d => digitsFrom (10 * n + d) cs

/-- The number written by digits with single underscores between them. -/
def digitsValue? : List Char → Option Nat
  | [] => none
  | c :: cs => (Text.digitValue? c).bind fun d => digitsFrom d cs

/-- The number written by digits with an optional sign. -/
def signedValue? : List Char → Option Int
  | '-' :: cs => (digitsValue? cs).map fun n => -(n : Int)
  | '+' :: cs => (digitsValue? cs).map fun n => (n : Int)
  | cs => (digitsValue? cs).map fun n => (n : Int)

/-- The number that characters write. -/
def wholeOfChars (cs : List Char) : Except Misuse Int :=
  let digits := cs.filter fun c => (Text.digitValue? c).isSome
  match signedValue? (Text.stripChars cs) with
  | some i => if digitLimit < digits.length then .error .badNumber else .ok i
  | none => .error .badNumber

/-- A byte as a character; those that write neither digits, signs nor blanks are all the same. -/
def byteChar (b : UInt8) : Char :=
  if b.toNat < 28 || (32 ≤ b.toNat && b.toNat < 128) then Char.ofNat b.toNat else Char.ofNat 0

/-- A value as a whole number. -/
def wholeNumber : Value → Except Misuse Int
  | .bool b => .ok (if b then 1 else 0)
  | .int i => .ok i
  | .float .nan => .error .badNumber
  | .float x =>
    match x.truncate? with
    | some i => .ok i
    | none => .error .numberTooLarge
  | .str s => wholeOfChars s.toList
  | .bytes bs => wholeOfChars (bs.map byteChar)
  | .uuid u => .ok u.toNat
  | _ => .error .wrongType

end Docbase
