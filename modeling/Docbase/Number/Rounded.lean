import Docbase.Number.Shortest

/-!
# Rounded decimal texts of a double

A finite double in decimal with a given number of digits, rounded to the nearest numeral, a tie
going to the even digit.

* `Rounded.fixedText`: with so many digits behind the point.
* `Rounded.scientificText`: with one digit before the point, and an exponent.
* `Rounded.generalText`: with so many digits in all, in the shorter of the two forms.
-/

namespace Docbase.Rounded

/-- The number `m * 2 ^ e` as a quotient. -/
def quotient (m : Nat) (e : Int) : Nat × Nat := (m * Nat.pow 2 e.toNat, Nat.pow 2 (-e).toNat)

/-- The whole number nearest to `m * 2 ^ e * 10 ^ power`. -/
def scaled (m : Nat) (e power : Int) : Nat :=
  let (num, den) := quotient m e
  Binary64.roundHalfEven (num * Nat.pow 10 power.toNat) (den * Nat.pow 10 (-power).toNat)

/-- The first `count` digits of `m * 2 ^ e`, and the power of ten that the first of them stands
for. -/
def significant (m : Nat) (e : Int) (count : Nat) : Nat × Int :=
  if m = 0 then (0, 0)
  else
    let (num, den) := quotient m e
    let exponent := Shortest.pointOf num den - 1
    let n := scaled m e ((count : Int) - 1 - exponent)
    if n = Nat.pow 10 count then (n / 10, exponent + 1) else (n, exponent)

/-- Digits with a point before the last `places` of them. The bare point stays only if asked
for. -/
def pointed (places : Nat) (bare : Bool) (digits : List Char) : List Char :=
  let whole := digits.length - places
  digits.take whole ++ (if places = 0 && !bare then [] else '.' :: digits.drop whole)

/-- Digits without the zeros behind the point, and without a bare point. -/
def trimmed (cs : List Char) : List Char :=
  if cs.contains '.' then
    match cs.reverse.dropWhile (· == '0') with
    | '.' :: rest => rest.reverse
    | rest => rest.reverse
  else cs

/-- An exponent with its sign and at least two digits. -/
def exponentText (exponent : Int) : List Char :=
  'e' :: (if exponent < 0 then '-' else '+') :: Text.padded 10 2 exponent.natAbs

/-- The text with `places` digits behind the point. -/
def fixedText (m : Nat) (e : Int) (places : Nat) (bare : Bool) : List Char :=
  pointed places bare (Text.padded 10 (places + 1) (scaled m e places))

/-- The text with one digit before the point and `places` behind it. -/
def scientificText (m : Nat) (e : Int) (places : Nat) (bare : Bool) : List Char :=
  let (n, exponent) := significant m e (places + 1)
  pointed places bare (Text.padded 10 (places + 1) n) ++ exponentText exponent

/-- The text with `count` digits, positional for exponents from -4 to below `count`; zeros at the
end stay only if asked for. -/
def generalText (m : Nat) (e : Int) (count : Nat) (bare : Bool) : List Char :=
  let count := max 1 count
  let (n, exponent) := significant m e count
  let trim (cs : List Char) : List Char := if bare then cs else trimmed cs
  if -4 ≤ exponent && exponent < count then
    let places := ((count : Int) - 1 - exponent).toNat
    trim (pointed places bare (Text.padded 10 (places + 1) n))
  else trim (pointed (count - 1) bare (Text.padded 10 count n)) ++ exponentText exponent

end Docbase.Rounded
