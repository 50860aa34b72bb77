import Docbase.Error
import Docbase.Number.Rounded

/-!
# Places of message templates

A place says how a value is written: `s`, `r` and `a` as text, `d`, `i`, `u`, `o`, `x` and `X` as a
whole number, `e`, `f` and `g` as a real one, `c` as a character; with marks for sign, padding and
form, a width and a precision before the letter.

* `Place.write`: a value in the form that a place asks for.
-/

namespace Docbase.Log

/-- The marks of a place. -/
structure Marks where
  /-- Blanks go behind the value. -/
  left : Bool := false
  /-- Numbers have a sign in any case. -/
  sign : Bool := false
  /-- Numbers without a sign have a blank in its stead. -/
  blank : Bool := false
  /-- Numbers show their base, and keep the point and the zeros behind it. -/
  full : Bool := false
  /-- Numbers are filled up with zeros. -/
  zeros : Bool := false
  deriving DecidableEq, Repr

/-- The marks with one more, if the character is one. -/
def Marks.add? (m : Marks) (c : Char) : Option Marks :=
  if c = '-' then some { m with left := true }
  else if c = '+' then some { m with sign := true }
  else if c = ' ' then some { m with blank := true }
  else if c = '#' then some { m with full := true }
  else if c = '0' then some { m with zeros := true }
  else none

/-- The form of a place. -/
structure Place where
  marks : Marks
  width : Nat
  precision : Option Nat
  letter : Char

namespace Place

variable (p : Place)

/-- A text in the width of a place. -/
def layText (cs : List Char) : List Char :=
  let fill := List.replicate (p.width - cs.length) ' '
  if p.marks.left then cs ++ fill else fill ++ cs

/-- A number in the width of a place: its sign, the mark of its base, and its digits. -/
def layNumber (sign base digits : List Char) : List Char :=
  if p.marks.zeros && !p.marks.left then
    let taken := sign.length + base.length + digits.length
    sign ++ base ++ List.replicate (p.width - taken) '0' ++ digits
  else p.layText (sign ++ base ++ digits)

/-- The sign of a number. -/
def signText (negative : Bool) : List Char :=
  if negative then ['-']
  else if p.marks.sign then ['+']
  else if p.marks.blank then [' ']
  else []

/-- A text, cut to the precision. -/
def writeText (cs : List Char) : List Char :=
  p.layText (match p.precision with
    | some n => cs.take n
    | none => cs)

/-- The letters that ask for another base than ten. -/
def asksForBase : Bool := p.letter == 'o' || p.letter == 'x' || p.letter == 'X'

/-- A value as a whole number. Real numbers lose their fraction, but have no digits in another
base. -/
def wholeOf : Value → Except Misuse Int
  | .bool b => .ok (if b then 1 else 0)
  | .int i => .ok i
  | .float x =>
    if p.asksForBase then .error .wrongType
    else
      match x, x.truncate? with
      | .nan, _ => .error .badNumber
      | _, some i => .ok i
      | _, none => .error .numberTooLarge
  | .uuid u => if p.asksForBase then .error .wrongType else .ok u.toNat
  | _ => .error .wrongType

/-- A whole number; the precision is the least number of digits. -/
def writeWhole (i : Int) : List Char :=
  let base := if p.letter = 'o' then 8 else if p.asksForBase then 16 else 10
  let digits := Nat.toDigits base i.natAbs
  let digits := List.replicate (p.precision.getD 0 - digits.length) '0' ++ digits
  let digits := if p.letter = 'X' then digits.map Char.toUpper else digits
  let base := if p.marks.full && p.asksForBase then ['0', p.letter] else []
  p.layNumber (p.signText (i < 0)) base digits

/-- The letters that ask for a real number. -/
def asksForReal : Bool := "eEfFgG".toList.contains p.letter

/-- A value as a real number. -/
def realOf : Value → Except Misuse Binary64
  | .bool b => .ok (.ofRatio false (if b then 1 else 0) 1)
  | .int i =>
    match Binary64.ofRatio (i < 0) i.natAbs 1 with
    | .infinite _ => .error .numberTooLarge
    | x => .ok x
  | .float x => .ok x
  | _ => .error .wrongType

/-- The digits of a real number, six behind the point unless the precision says otherwise. -/
def realDigits (m : Nat) (e : Int) : List Char :=
  let precision := p.precision.getD 6
  let kind := p.letter.toLower
  if kind = 'f' then Rounded.fixedText m e precision p.marks.full
  else if kind = 'e' then Rounded.scientificText m e precision p.marks.full
  else Rounded.generalText m e precision p.marks.full

/-- A real number. -/
def writeReal (x : Binary64) : List Char :=
  let (negative, digits) := match x with
    | .nan => (false, "nan".toList)
    | .infinite negative => (negative, "inf".toList)
    | .finite negative m e => (negative, p.realDigits m e)
  let digits := if p.letter.isUpper then digits.map Char.toUpper else digits
  p.layNumber (p.signText negative) [] digits

/-- A value as a character: a text of one, or a number of one. -/
def charOf : Value → Except Misuse Char
  | .str s =>
    match s.toList with
    | [c] => .ok c
    | _ => .error .wrongType
  | .bool b => .ok (Char.ofNat (if b then 1 else 0))
  | .int i => if 0 ≤ i && i < 0x110000 then .ok (Char.ofNat i.toNat) else .error .numberTooLarge
  | _ => .error .wrongType

/-- Characters with those outside ASCII as escapes. -/
def asciiOnly (cs : List Char) : List Char :=
  cs.flatMap fun c => if c.toNat < 128 then [c] else Text.numberEscape c.toNat

/-- A value in the form that a place asks for. -/
def write (v : Value) : Except Misuse (List Char) :=
  if p.letter = 's' then .ok (p.writeText v.text.toList)
  else if p.letter = 'r' then .ok (p.writeText v.display.toList)
  else if p.letter = 'a' then .ok (p.writeText (asciiOnly v.display.toList))
  else if p.letter = 'c' then (charOf v).map fun c => p.layText [c]
  else if "diu".toList.contains p.letter || p.asksForBase then (p.wholeOf v).map p.writeWhole
  else if p.asksForReal then (realOf v).map p.writeReal
  else .error .badNumber

end Place

end Docbase.Log
