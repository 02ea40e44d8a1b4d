/-!
## Double-precision numbers

The IEEE 754 format binary64, held as its bit pattern. A decimal is read by
rounding its exact value to the nearest number of the format, a half going to
the even neighbour. A number is written with the fewest digits that read back to
it and never with an exponent. All arithmetic on the way is on natural numbers.
-/

namespace ProtoSchema

/-- A number of the format binary64: sign bit, eleven exponent bits, 52 fraction
bits. -/
structure Binary64 where
  bits : UInt64
  deriving DecidableEq, Repr, Inhabited

namespace Binary64

/-- A base to the power of an exponent. -/
@[inline] def raise {α : Type} [NatPow α] (base : α) (exponent : Nat) : α :=
  base ^ exponent

/-! ### Fields -/

def isNegative (number : Binary64) : Bool :=
  raise 2 63 ≤ number.bits.toNat

def biasedExponent (number : Binary64) : Nat :=
  number.bits.toNat / raise 2 52 % raise 2 11

def fraction (number : Binary64) : Nat :=
  number.bits.toNat % raise 2 52

def isNaN (number : Binary64) : Bool :=
  number.biasedExponent == 2047 && number.fraction != 0

/-- Whether the number is one of the two infinities. -/
def isInfinite (number : Binary64) : Bool :=
  number.biasedExponent == 2047 && number.fraction == 0

/-- The integer part of the magnitude's product form: the magnitude of a finite
number is `significand · 2 ^ exponent`. -/
def significand (number : Binary64) : Nat :=
  if number.biasedExponent = 0 then number.fraction else raise 2 52 + number.fraction

/-- The power of two in the magnitude's product form. -/
def exponent (number : Binary64) : Int :=
  (max number.biasedExponent 1 : Nat) - 1075

/-- The number with its sign bit flipped. -/
def neg (number : Binary64) : Binary64 :=
  ⟨number.bits ^^^ 0x8000000000000000⟩

def infinity : Binary64 := ⟨0x7FF0000000000000⟩

/-- The NaN with a clear sign bit and only the first fraction bit set. -/
def nan : Binary64 := ⟨0x7FF8000000000000⟩

/-! ### Rounding -/

/-- A quotient rounded to the nearest integer, a half to the even one. -/
def roundQuotient (numerator denominator : Nat) : Nat :=
  let quotient := numerator / denominator
  let twice := 2 * (numerator % denominator)
  if twice < denominator then quotient
  else if denominator < twice then quotient + 1
  else quotient + quotient % 2

/-- The nearest number to a positive quotient. The power of two is chosen such
that the integer before it has 53 bits, or is as small as the format allows. An
integer that rounds up to the next power of two carries into the exponent bits,
and out of the last exponent into infinity. -/
def ofRatio (numerator denominator : Nat) : Binary64 :=
  let scaled (power : Int) : Nat × Nat :=
    (numerator * raise 2 (-power).toNat, denominator * raise 2 power.toNat)
  let guess := max ((numerator.log2 : Int) - denominator.log2 - 53) (-1074)
  let (top, bottom) := scaled guess
  let power := if top / bottom < raise 2 53 then guess else guess + 1
  let (top, bottom) := scaled power
  let bits := (power + 1074).toNat * raise 2 52 + roundQuotient top bottom
  if 2047 * raise 2 52 ≤ bits then infinity else ⟨UInt64.ofNat bits⟩

/-- The nearest number to `digits · 10 ^ power`. Decimals that lie beyond the
format's range by their length alone are decided without computing the power. -/
def ofDecimal (digits : Nat) (power : Int) : Binary64 :=
  let places : Int := (Nat.toDigits 10 digits).length + power
  if digits = 0 ∨ places < -330 then ⟨0⟩
  else if 310 < places then infinity
  else ofRatio (digits * raise 10 power.toNat) (raise 10 (-power).toNat)

/-- The nearest number to an integer. -/
def ofNat (number : Nat) : Binary64 :=
  ofDecimal number 0

/-! ### Writing -/

/-- The magnitude of a finite number as a quotient. -/
def magnitude (number : Binary64) : Nat × Nat :=
  (number.significand * raise 2 number.exponent.toNat, raise 2 (-number.exponent).toNat)

/-- Whether the number is a finite integer. -/
def isInteger (number : Binary64) : Bool :=
  let (numerator, denominator) := number.magnitude
  number.biasedExponent != 2047 && numerator % denominator == 0

/-- A decimal `digits · 10 ^ power`. -/
structure Decimal where
  digits : Nat
  power : Int
  deriving DecidableEq, Repr

/-- Written out without an exponent. -/
def Decimal.text (decimal : Decimal) : String :=
  let digits := Nat.toDigits 10 decimal.digits
  if 0 ≤ decimal.power then
    String.ofList (digits ++ List.replicate decimal.power.toNat '0')
  else
    let places := (-decimal.power).toNat
    let padded := List.replicate (places + 1 - digits.length) '0' ++ digits
    let whole := padded.length - places
    String.ofList (padded.take whole ++ '.' :: padded.drop whole)

/-- The interval of reals that round to a positive finite number, as quarters of
its last place: the interval's ends and the number itself. Below a power of two
the neighbour is only half as far. The ends belong to it when the last bit of
the significand is 0. -/
structure Neighbourhood where
  low : Nat
  centre : Nat
  high : Nat
  closed : Bool

/-- The neighbourhood of a number and the power of two of its unit. -/
def neighbourhood (number : Binary64) : Neighbourhood × Int :=
  let significand := number.significand
  let lowerStep := if number.fraction = 0 ∧ 1 < number.biasedExponent then 1 else 2
  ({ low := 4 * significand - lowerStep
     centre := 4 * significand
     high := 4 * significand + 2
     closed := significand % 2 = 0 },
   number.exponent - 2)

/-- The two decimals with the given last place around a number, the nearer of
those that lie in its neighbourhood; the greater one if both are equally near. -/
def decimalAt? (number : Binary64) (power : Int) : Option Decimal :=
  let (area, unit) := number.neighbourhood
  let scale := raise 2 unit.toNat * raise 10 (-power).toNat
  let grid := raise 2 (-unit).toNat * raise 10 power.toNat
  let below := area.centre * scale / grid
  let inside (digits : Nat) : Bool :=
    if area.closed then area.low * scale ≤ digits * grid && digits * grid ≤ area.high * scale
    else area.low * scale < digits * grid && digits * grid < area.high * scale
  let nearerBelow := 2 * (area.centre * scale) < (2 * below + 1) * grid
  if inside below && (nearerBelow || !inside (below + 1)) then some ⟨below, power⟩
  else if inside (below + 1) then some ⟨below + 1, power⟩
  else none

/-- The number of digits before the decimal point of a positive number; zero or
negative if zeros follow the point. -/
def leadingPlace (number : Binary64) : Int :=
  let (numerator, denominator) := number.magnitude
  (Nat.toDigits 10 (numerator * raise 10 400 / denominator)).length - 400

/-- The decimal with the fewest digits that reads back to a positive finite
number. The search begins at the place above the leading digit, where a number
just below a power of ten finds that power. Seventeen digits always do. -/
def shortestDecimal (number : Binary64) : Decimal :=
  let place := number.leadingPlace
  ((List.range 18).findSome? fun (more : Nat) => number.decimalAt? (place - more)).getD ⟨0, 0⟩

def signed (number : Binary64) (magnitude : String) : String :=
  if number.isNegative then "-" ++ magnitude else magnitude

/-- The shortest text: an integer has no point, and a NaN no sign. -/
def shortText (number : Binary64) : String :=
  if number.isNaN then "NaN"
  else if number.isInfinite then number.signed "inf"
  else if number.significand = 0 then number.signed "0"
  else number.signed number.shortestDecimal.text

/-- The text of a constant: an integer is written with all its digits and one
zero after the point, any other number in its shortest form. -/
def constantText (number : Binary64) : String :=
  if number.isInteger then
    let (numerator, denominator) := number.magnitude
    number.signed (toString (numerator / denominator) ++ ".0")
  else number.shortText

end Binary64

end ProtoSchema
