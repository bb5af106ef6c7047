import Cascade.Decimal.Shortest

/-!
# Writing decimals

A decimal is written positionally, with at least one digit on either side of the point, or by its
digits with a point after the first and the power of ten behind them. A style says which of the two
is used for which sizes.
-/
namespace Cascade.Decimal

/-- Where positional writing begins and ends. -/
structure Style where
  /-- The least power of ten of the first digit that is written positionally. -/
  least : Int
  /-- The greatest power of ten of the first digit that is written positionally. -/
  greatest : Int
  deriving DecidableEq, Repr

/-- Positional from five places behind the point to sixteen before it. -/
def Style.plain : Style := ⟨-5, 15⟩

/-- Zeros, one after the other. -/
def zeros (count : Nat) : String := String.ofList (List.replicate count '0')

/-- The decimal with its point in place. -/
def positional (d : Decimal) : String :=
  let digits := (toString d.digits).toList
  let places := (-d.exponent).toNat
  if 0 ≤ d.exponent then toString d.digits ++ zeros d.exponent.toNat ++ ".0"
  else if places < digits.length then
    let before := digits.length - places
    String.ofList (digits.take before) ++ "." ++ String.ofList (digits.drop before)
  else "0." ++ zeros (places - digits.length) ++ toString d.digits

/-- The decimal with its power of ten behind an `e`, signed either way. -/
def scientific (d : Decimal) (power : Int) : String :=
  let digits := (toString d.digits).toList
  let point := if digits.length = 1 then "" else "."
  let sign := if power < 0 then "-" else "+"
  String.ofList (digits.take 1) ++ point ++ String.ofList (digits.drop 1) ++ "e" ++ sign
    ++ toString power.natAbs

/-- The decimal in a style. -/
def Style.write (style : Style) (d : Decimal) : String :=
  let power := d.exponent + Int.ofNat ((toString d.digits).length - 1)
  if style.least ≤ power ∧ power ≤ style.greatest then d.positional else d.scientific power

/-- A finite number of floating point in a style, zero with its sign. -/
def Style.writeFloat (style : Style) (value : Float) : String :=
  let bits := value.toBits
  let sign := if bits >>> 63 = 1 then "-" else ""
  let size := Binary.ofBits bits
  if size.significand = 0 then sign ++ "0.0" else sign ++ style.write size.shortest

end Cascade.Decimal
