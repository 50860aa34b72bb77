/-!
# Binary floating point, exactly

A finite double is a sign, a whole significand and a power of two, so that every rule about it is
a statement about whole numbers. Numbers are kept in canonical form: the significand has 53 bits,
or the exponent is the least one.

* `Binary64.ofRatio`: the double nearest to a quotient, a tie going to the even significand.
* `Binary64.ofDecimal`: the double nearest to a decimal numeral.
* `Binary64.truncate?`: the whole part.
* `Binary64.same`, `Binary64.sameInt`: equality of numbers, which knows one zero and no NaN.
-/

namespace Docbase

/-- A double: not a number, an infinity, or `± significand * 2 ^ exponent`. -/
inductive Binary64
  | nan
  | infinite (negative : Bool)
  | finite (negative : Bool) (significand : Nat) (exponent : Int)
  deriving DecidableEq, Repr, Inhabited

namespace Binary64

/-- The least exponent, that of the subnormal numbers. -/
def minExponent : Int := -1074

/-- The greatest exponent of a finite number. -/
def maxExponent : Int := 971

/-- Zero with a sign. -/
def zero (negative : Bool) : Binary64 := .finite negative 0 minExponent

/-- `num / den` scaled by `2 ^ (-exponent)`, as a quotient again. -/
def scale (num den : Nat) (exponent : Int) : Nat × Nat :=
  (num * Nat.pow 2 (-exponent).toNat, den * Nat.pow 2 exponent.toNat)

/-- The whole number nearest to a quotient, a tie going to the even one. -/
def roundHalfEven (num den : Nat) : Nat :=
  let q := num / den
  let r := num % den
  if den < 2 * r || (2 * r == den && q % 2 == 1) then q + 1 else q

/-- The exponent at which `num / den` has a significand of 53 bits, or the least exponent. -/
def exponentOf (num den : Nat) : Int :=
  let guess : Int := (num.log2 : Int) - (den.log2 : Int) - 52
  let (n, d) := scale num den guess
  max minExponent (if n < d * Nat.pow 2 52 then guess - 1 else guess)

/-- The double nearest to a quotient of natural numbers. -/
def ofRatio (negative : Bool) (num den : Nat) : Binary64 :=
  if num = 0 then zero negative
  else
    let e := exponentOf num den
    let (n, d) := scale num den e
    let m := roundHalfEven n d
    let (m, e) := if m = Nat.pow 2 53 then (Nat.pow 2 52, e + 1) else (m, e)
    if maxExponent < e then .infinite negative else .finite negative m e

/-- The number of decimal digits of a natural number. -/
def decimalLength (n : Nat) : Nat := (Nat.toDigits 10 n).length

/-- The double nearest to `± digits * 10 ^ power`. Numerals far outside the range of doubles are
settled by their order of magnitude alone. -/
def ofDecimal (negative : Bool) (digits : Nat) (power : Int) : Binary64 :=
  let order := (decimalLength digits : Int) + power
  if digits = 0 || order < -400 then zero negative
  else if 400 < order then .infinite negative
  else ofRatio negative (digits * Nat.pow 10 power.toNat) (Nat.pow 10 (-power).toNat)

/-- The whole part of a finite number: its fraction is cut off. -/
def truncate? : Binary64 → Option Int
  | .finite negative m e =>
    let whole : Int := ((m * Nat.pow 2 e.toNat) / Nat.pow 2 (-e).toNat : Nat)
    some (if negative then -whole else whole)
  | _ => none

/-- The two are the same number: both zeros are, a NaN is not even itself. -/
def same : Binary64 → Binary64 → Bool
  | .nan, _ | _, .nan => false
  | .finite s m e, .finite s' m' e' => (m == 0 && m' == 0) || (s == s' && m == m' && e == e')
  | .infinite s, .infinite s' => s == s'
  | _, _ => false

/-- The double is exactly that whole number. -/
def sameInt : Binary64 → Int → Bool
  | .finite negative m e, i =>
    let signed : Int := if negative then -(m : Int) else m
    signed * (Nat.pow 2 e.toNat : Nat) == i * (Nat.pow 2 (-e).toNat : Nat)
  | _, _ => false

/-- The number is zero, of either sign. -/
def isZero : Binary64 → Bool
  | .finite _ m _ => m == 0
  | _ => false

end Binary64

end Docbase
