/-!
# The shortest decimal of a binary number

Every number of binary floating point stands for an interval of reals, those that round to it. Its
shortest decimal is the one with the fewest digits among the decimals in that interval, and of
several with equally few digits the one nearest to the number. It is found by trying one digit, two
digits and so on: for each number of digits the two decimals around the number are the only ones
that can be nearest. All comparisons are between natural numbers, so none is rounded.

Main definitions:

* `Binary.readsBack`, whether a decimal lies in the interval of a number;
* `Binary.shortest`, the shortest decimal of a number.
-/
namespace Cascade

/-- The non-negative number `digits * 10 ^ exponent`. -/
structure Decimal where
  /-- The digits. -/
  digits : Nat
  /-- The power of ten they are multiplied by. -/
  exponent : Int
  deriving DecidableEq, Repr

/-- The non-negative number `significand * 2 ^ exponent`. -/
structure Binary where
  /-- The digits in binary. -/
  significand : Nat
  /-- The power of two they are multiplied by. -/
  exponent : Int
  /-- Whether the next smaller number is half as far away as the next larger one. -/
  narrowBelow : Bool
  deriving DecidableEq, Repr

/-- How a decimal compares with a multiple of a power of two. -/
def Decimal.compareScaled (d : Decimal) (multiple : Nat) (power : Int) : Ordering :=
  compare (d.digits * Nat.pow 10 d.exponent.toNat * Nat.pow 2 (-power).toNat)
    (multiple * Nat.pow 2 power.toNat * Nat.pow 10 (-d.exponent).toNat)

/-- The same decimal without zeros at its end, of which there are at most `bound`. -/
def Decimal.trim (d : Decimal) : Nat → Decimal
  | 0 => d
  | bound + 1 =>
    if d.digits ≠ 0 ∧ d.digits % 10 = 0 then trim ⟨d.digits / 10, d.exponent + 1⟩ bound else d

namespace Binary

/-- The number of the lower 63 bits of binary floating point of double width. -/
def ofBits (bits : UInt64) : Binary :=
  let scale := ((bits >>> 52) &&& 0x7FF).toNat
  let fraction := (bits &&& 0xFFFFFFFFFFFFF).toNat
  if scale = 0 then ⟨fraction, -1074, false⟩
  else ⟨0x10000000000000 + fraction, Int.ofNat scale - 1075, fraction = 0 && scale > 1⟩

/-- Whether the decimal rounds to the number; the ends of the interval round to an even one. -/
def readsBack (x : Binary) (d : Decimal) : Bool :=
  let lower := if x.narrowBelow then 4 * x.significand - 1 else 4 * x.significand - 2
  let upper := 4 * x.significand + 2
  let even := x.significand % 2 = 0
  let fromBelow := d.compareScaled lower (x.exponent - 2)
  let fromAbove := d.compareScaled upper (x.exponent - 2)
  (fromBelow == .gt || (even && fromBelow == .eq)) &&
    (fromAbove == .lt || (even && fromAbove == .eq))

/-- A power of ten above the number and above no other number by more than a factor of ten. -/
def scale (x : Binary) : Int :=
  let estimate := Int.fdiv ((Int.ofNat x.significand.log2 + x.exponent) * 30103) 100000
  let candidates := [estimate - 1, estimate, estimate + 1, estimate + 2]
  let above (power : Int) : Bool := Decimal.compareScaled ⟨1, power⟩ x.significand x.exponent == .gt
  (candidates.find? above).getD (estimate + 3)

/-- The whole number of times the power of ten goes into the number. -/
def wholeMultiples (x : Binary) (power : Int) : Nat :=
  (x.significand * Nat.pow 2 x.exponent.toNat * Nat.pow 10 (-power).toNat) /
    (Nat.pow 10 power.toNat * Nat.pow 2 (-x.exponent).toNat)

/-- The nearer of a decimal and the next one of the same power of ten; halfway the even one. -/
def nearer (x : Binary) (below above : Decimal) : Decimal :=
  match Decimal.compareScaled ⟨below.digits + above.digits, below.exponent⟩ (2 * x.significand)
      x.exponent with
  | .gt => below
  | .lt => above
  | .eq => if below.digits % 2 = 0 then below else above

/-- The nearest decimal with the given power of ten that reads back. -/
def onGrid? (x : Binary) (power : Int) : Option Decimal :=
  let whole := x.wholeMultiples power
  let below : Decimal := ⟨whole, power⟩
  let above : Decimal := ⟨whole + 1, power⟩
  match x.readsBack below, x.readsBack above with
  | true, true => some (x.nearer below above)
  | true, false => some below
  | false, true => some above
  | false, false => none

/-- The exact decimal of the number. -/
def exact (x : Binary) : Decimal :=
  let power := min x.exponent 0
  ⟨x.wholeMultiples power, power⟩

/-- The shortest decimal of a number that is not zero. -/
def shortest (x : Binary) : Decimal :=
  let scale := x.scale
  let grids := (List.range 17).map fun digits => scale - Int.ofNat (digits + 1)
  ((grids.findSome? x.onGrid?).getD x.exact).trim 400

end Binary

end Cascade
