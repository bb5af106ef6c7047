import Cascade.Json.Reader

/-!
# Numbers in documents

A number is written as a sign, a whole part without useless zeros, a fraction and an exponent; only
the whole part is required. A whole number without fraction and exponent is exact as long as it fits
in 64 bits. Every other number becomes floating point: its digits are read for as long as they fit
in 64 bits, the digits of the whole part that do not fit count as a power of ten, those of the
fraction count for nothing, and the power of ten is applied by floating-point steps.
-/
namespace Cascade.Json

/-- A number as it is written. -/
structure Numeral where
  /-- Whether a minus sign stands in front. -/
  negative : Bool
  /-- The digits of the whole part. -/
  whole : List Char
  /-- The digits behind the point. -/
  fraction : List Char
  /-- The power of ten, if one is written. -/
  exponent : Option Int
  deriving DecidableEq, Repr

/-- The value of a number. -/
inductive Number where
  /-- A whole number that fits in 64 bits, signed if it is negative. -/
  | integer (value : Int)
  /-- Any other number. -/
  | float (value : Float)

/-- The value of a digit. -/
def digitValue (digit : Char) : Nat := digit.toNat - '0'.toNat

/-- The value of digits, however many. -/
def digitsValue (digits : List Char) : Nat :=
  digits.foldl (fun value digit => 10 * value + digitValue digit) 0

/-- Appends digits to a value while it fits in 64 bits; the digits that are left. -/
def appendFitting (value : Nat) : List Char → Nat × List Char
  | [] => (value, [])
  | digit :: digits =>
    let longer := 10 * value + digitValue digit
    if longer < UInt64.size then appendFitting longer digits else (value, digit :: digits)

/-- The largest power of ten that floating point holds. -/
def largestStep : Nat := 308

/-- A power of ten in floating point. -/
def tenTo (power : Nat) : Float := Float.ofScientific 1 false power

/-- A number times a power of ten, by steps; none if it becomes too large. -/
def scaled? (value : Float) (power : Int) : Option Float :=
  if power.natAbs ≤ largestStep then
    if 0 ≤ power then
      let product := value * tenTo power.natAbs
      if product.isInf then none else some product
    else some (value / tenTo power.natAbs)
  else if value == 0 then some value
  else if 0 ≤ power then none
  else scaled? (value / tenTo largestStep) (power + largestStep)
termination_by (-power).toNat
decreasing_by simp only [largestStep] at *; omega

namespace Numeral

/-- The number in floating point; none if it is too large. -/
def float? (numeral : Numeral) : Option Float :=
  let (whole, overflow) := appendFitting 0 numeral.whole
  let (significand, unread) := appendFitting whole numeral.fraction
  let places := Int.ofNat overflow.length - Int.ofNat (numeral.fraction.length - unread.length)
  let size := scaled? (UInt64.ofNat significand).toFloat (places + numeral.exponent.getD 0)
  size.map fun size => if numeral.negative then -size else size

/-- The whole number if it is one that fits; a negative zero is not. -/
def integer? (numeral : Numeral) : Option Int :=
  let size := digitsValue numeral.whole
  if numeral.fraction ≠ [] ∨ numeral.exponent ≠ none then none
  else if numeral.negative then
    if 0 < size ∧ size ≤ UInt64.size / 2 then some (-Int.ofNat size) else none
  else if size < UInt64.size then some (Int.ofNat size) else none

/-- The value of the number. -/
def value (numeral : Numeral) : Except JsonError Number :=
  match numeral.integer? with
  | some value => .ok (.integer value)
  | none =>
    match numeral.float? with
    | some value => .ok (.float value)
    | none => .error .numberOutOfRange

end Numeral

namespace Reader

/-- Takes a run of digits with at least one. -/
def digits (atEnd : JsonError) : Reader (List Char) := do
  let first ← next atEnd
  if first.isDigit then return first :: (← takeWhile Char.isDigit) else fail .invalidNumber

/-- Takes the rest of the whole part of a number; only zero itself begins with a zero. -/
def restOfWhole (first : Char) : Reader (List Char) := do
  if first.isDigit then
    let later ← takeWhile Char.isDigit
    if first = '0' ∧ later ≠ [] then fail .invalidNumber else return first :: later
  else fail .invalidNumber

/-- Takes the fraction of a number, if there is one. -/
def fraction (atEnd : JsonError) : Reader (List Char) := do
  if (← peek?) = some '.' then
    skip 1
    digits atEnd
  else return []

/-- Takes the exponent of a number, if there is one. -/
def exponent (atEnd : JsonError) : Reader (Option Int) := do
  let mark ← peek?
  if mark = some 'e' ∨ mark = some 'E' then
    skip 1
    let sign ← peek?
    if sign = some '+' ∨ sign = some '-' then skip 1
    let size := Int.ofNat (digitsValue (← digits atEnd))
    return some (if sign = some '-' then -size else size)
  else return none

/-- Takes the rest of a number, which may not end where digits have to stand. -/
def restOfNumeral (first : Char) (atEnd : JsonError) : Reader Numeral := do
  let negative := first = '-'
  let whole ← restOfWhole (← if negative then next atEnd else give first)
  return ⟨negative, whole, ← fraction atEnd, ← exponent atEnd⟩

/-- Takes a number for its value. -/
def number : Reader Number := do
  match (← restOfNumeral (← next .endInValue) .endInValue).value with
  | .ok value => return value
  | .error error => fail error

end Reader

end Cascade.Json
