import Docbase.Number.Binary64
import Docbase.Text.Digit

/-!
# The shortest decimal text of a double

Of all decimal numerals that read back as the double, the one with the fewest digits is written;
of several with that many digits, the one nearest to the double.

* `Shortest.decimal`: digits and power of ten of that numeral.
* `FloatLayout`: where positional notation ends and how the exponent and the special numbers are
  written.
* `FloatLayout.text`: the text of a double in a layout.
-/

namespace Docbase

namespace Shortest

/-- The numerals that read back as `significand * 2 ^ exponent`, in units of
`2 ^ (exponent - 2)`: those between the two ends, the ends included when the significand is even. -/
structure Window where
  low : Nat
  high : Nat
  closed : Bool

/-- The window of a double. It reaches half way to each neighbour; below a power of two the
neighbour is only half as far away. -/
def window (m : Nat) (e : Int) : Window where
  low := 4 * m - (if m = Nat.pow 2 52 && Binary64.minExponent < e then 1 else 2)
  high := 4 * m + 2
  closed := m % 2 == 0

/-- `units * 2 ^ (e - 2)` and `digits * 10 ^ power` as whole numbers of one common unit. -/
def align (e : Int) (units digits : Nat) (power : Int) : Nat × Nat :=
  (units * Nat.pow 2 (e - 2).toNat * Nat.pow 10 (-power).toNat,
    digits * Nat.pow 10 power.toNat * Nat.pow 2 (2 - e).toNat)

/-- The numeral lies in the window. -/
def inWindow (w : Window) (e : Int) (digits : Nat) (power : Int) : Bool :=
  let (lo, x) := align e w.low digits power
  let (hi, _) := align e w.high digits power
  if w.closed then lo ≤ x && x ≤ hi else lo < x && x < hi

/-- The number of digits before the decimal point of `num / den`, counted from the first digit
that is not zero: `10 ^ (point - 1) ≤ num / den < 10 ^ point`. -/
def pointOf (num den : Nat) : Int :=
  let guess : Int := (Binary64.decimalLength num : Int) - Binary64.decimalLength den
  if den * Nat.pow 10 guess.toNat ≤ num * Nat.pow 10 (-guess).toNat then guess + 1 else guess

/-- Of the two neighbours of the double on the grid of multiples of `10 ^ power`, the nearer one
that lies in the window. -/
def onGrid? (m : Nat) (e : Int) (power : Int) : Option Nat :=
  let w := window m e
  let (x, unit) := align e (4 * m) 1 power
  let below := x / unit
  let rest := x % unit
  match inWindow w e below power, inWindow w e (below + 1) power with
  | true, true =>
    some (if 2 * rest < unit || (2 * rest == unit && below % 2 == 0) then below else below + 1)
  | true, false => some below
  | false, true => some (below + 1)
  | false, false => none

/-- The shortest numeral that reads back as `m * 2 ^ e`: the first grid of 1, 2, … 17 digits with
a numeral in the window. -/
def decimal (m : Nat) (e : Int) : Nat × Int :=
  let point := pointOf (m * Nat.pow 2 e.toNat) (Nat.pow 2 (-e).toNat)
  let grid := (List.range 17).findSome? fun n =>
    let power := point - (n + 1 : Nat)
    (onGrid? m e power).map (·, power)
  grid.getD (m * Nat.pow 2 e.toNat * Nat.pow 5 (-e).toNat, -((-e).toNat : Int))

end Shortest

/-- How numbers are laid out as text. -/
structure FloatLayout where
  /-- A number below one is written positionally with at most this many zeros after the point. -/
  leadingZeros : Nat
  /-- A number is written positionally with at most this many digits before the point. -/
  wholeDigits : Nat
  /-- The least number of digits of an exponent. -/
  exponentDigits : Nat
  /-- The text of a value that is not a number. -/
  nan : String
  /-- The text of infinity. -/
  infinity : String

namespace FloatLayout

/-- The text of the digits `0.d₁d₂… * 10 ^ point`. -/
def digitsText (layout : FloatLayout) (digits : List Char) (point : Int) : String :=
  if -(layout.leadingZeros : Int) ≤ point && point ≤ layout.wholeDigits then
    if point ≤ 0 then
      "0." ++ String.ofList (List.replicate (-point).toNat '0' ++ digits)
    else
      let fraction := digits.drop point.toNat
      String.ofList (digits.take point.toNat ++
        List.replicate (point.toNat - digits.length) '0') ++ "." ++
        (if fraction.isEmpty then "0" else String.ofList fraction)
  else
    let exponent := point - 1
    String.ofList (digits.take 1) ++
      (if digits.length ≤ 1 then "" else "." ++ String.ofList (digits.drop 1)) ++
      (if exponent < 0 then "e-" else "e+") ++
      String.ofList (Text.padded 10 layout.exponentDigits exponent.natAbs)

/-- The text of a double. -/
def text (layout : FloatLayout) : Binary64 → String
  | .nan => layout.nan
  | .infinite negative => (if negative then "-" else "") ++ layout.infinity
  | .finite negative m e =>
    (if negative then "-" else "") ++
      if m = 0 then "0.0"
      else
        let (digits, power) := Shortest.decimal m e
        let cs := Nat.toDigits 10 digits
        let trimmed := (cs.reverse.dropWhile (· == '0')).reverse
        layout.digitsText trimmed (cs.length + power)

end FloatLayout

end Docbase
