/-!
# Finite binary floating point numbers

A `Double` is a finite binary64 value given by its sign, significand and exponent. Products and
quotients are rounded to the nearest such value, a tie to the even significand, in exact integer
arithmetic. A decimal is read by two roundings: its digits become a double, and this is multiplied
or divided by a power of ten. So what is read is near the decimal, but not always the nearest
double. Writing takes the fewest decimal digits whose nearest double is the given one.

## Main definitions

- `Double.nearest`: the nearest double of a quotient of natural numbers.
- `Double.ofDecimal`: the double as which a decimal is read, or nothing beyond the largest one.
- `Double.readsBack`: whether a decimal lies among the reals that round to a double.
- `Double.toDecimal`: the shortest decimal that rounds to a double, the nearest of those.
-/

namespace DocTree

/-- The number `± significand * 2 ^ exponent`. A value that was rounded has a significand of 53
bits, or exponent -1074 and a smaller significand. -/
structure Double where
  negative : Bool
  significand : Nat
  exponent : Int
deriving DecidableEq, Repr

/-- The number `digits * 10 ^ scale`. -/
structure Decimal where
  digits : Nat
  scale : Int
deriving DecidableEq, Repr

namespace Double

/-- The power of a base for an exponent that is not negative, and one for a negative exponent. The
two powers for `e` and `-e` are the numerator and the denominator of `base ^ e`. -/
def power (base : Nat) (exponent : Int) : Nat := Nat.pow base exponent.toNat

/-- The least exponent, that of zero and of the subnormal numbers. -/
def minExponent : Int := -1074

/-- The exponent of the largest doubles. -/
def maxExponent : Int := 971

/-- Positive or negative zero. -/
def zero (negative : Bool) : Double := ⟨negative, 0, minExponent⟩

/-- Equality of the numbers: the two zeros are equal, and all else is itself only. -/
def same (x y : Double) : Bool :=
  x == y || (x.significand == 0 && y.significand == 0)

@[simp] theorem same_refl (x : Double) : x.same x = true := by simp [same]

theorem same_comm (x y : Double) : x.same y = y.same x := by
  simp only [same, Bool.beq_comm (a := x), Bool.and_comm]

theorem same_trans {x y z : Double} (hxy : x.same y = true) (hyz : y.same z = true) :
    x.same z = true := by
  grind [same]

/-! ## Rounding -/

/-- The quotient rounded to the nearest natural number, a tie to the even one. -/
def roundEven (numerator denominator : Nat) : Nat :=
  let quotient := numerator / denominator
  let twice := 2 * (numerator % denominator)
  if twice < denominator then quotient
  else if denominator < twice then quotient + 1
  else quotient + quotient % 2

/-- The exponent of the largest power of two that is at most the quotient. -/
def logTwo (numerator denominator : Nat) : Int :=
  let estimate : Int := numerator.log2 - denominator.log2
  if numerator * power 2 (-estimate) < denominator * power 2 estimate then estimate - 1
  else estimate

/-- The exponent of the unit of which the nearest double of a quotient is a multiple. -/
def unitExponent (numerator denominator : Nat) : Int :=
  max (logTwo numerator denominator - 52) minExponent

/-- The nearest double of `± numerator / denominator`, as if there were no largest one. -/
def nearest (negative : Bool) (numerator denominator : Nat) : Double :=
  if numerator = 0 then zero negative
  else
    let exponent := unitExponent numerator denominator
    let rounded :=
      roundEven (numerator * power 2 (-exponent)) (denominator * power 2 exponent)
    if rounded = power 2 53 then ⟨negative, power 2 52, exponent + 1⟩
    else ⟨negative, rounded, exponent⟩

/-- Whether a double that was rounded is at most the largest one. -/
def inRange (x : Double) : Bool := x.exponent ≤ maxExponent

/-- The rounded product. -/
def mul (x y : Double) : Double :=
  let exponent := x.exponent + y.exponent
  nearest (x.negative != y.negative) (x.significand * y.significand * power 2 exponent)
    (power 2 (-exponent))

/-- The rounded quotient. -/
def div (x y : Double) : Double :=
  let exponent := x.exponent - y.exponent
  nearest (x.negative != y.negative) (x.significand * power 2 exponent)
    (y.significand * power 2 (-exponent))

/-! ## Reading -/

/-- The scale of the largest power of ten in range. -/
def maxScale : Nat := 308

/-- The double of a power of ten. -/
def tenTo (scale : Nat) : Double := nearest false (power 10 scale) 1

/-- Multiplies by a power of ten, or gives nothing when that leads out of range. -/
def scaleUp (x : Double) (scale : Nat) : Option Double :=
  if scale ≤ maxScale then
    let product := x.mul (tenTo scale)
    if product.inRange then some product else none
  else if x.significand = 0 then some x
  else none

/-- Divides by a power of ten: first so many times by the largest one in range, until nothing is
left, and then by what remains of it. -/
def scaleDown : (times : Nat) → Double → (scale : Nat) → Double
  | 0, x, scale => x.div (tenTo scale)
  | times + 1, x, scale =>
    if x.significand = 0 then x
    else scaleDown times (x.div (tenTo maxScale)) (scale - maxScale)

/-- The double as which `± digits * 10 ^ scale` is read, or nothing when it is out of range. -/
def ofDecimal (negative : Bool) (decimal : Decimal) : Option Double :=
  let digits := nearest negative decimal.digits 1
  let scale := decimal.scale.natAbs
  if 0 ≤ decimal.scale then digits.scaleUp scale
  else some (scaleDown ((scale - 1) / maxScale) digits scale)

/-! ## Writing -/

/-- Compares `n * 10 ^ i` with `m * 2 ^ j`. -/
def compareScaled (n : Nat) (i : Int) (m : Nat) (j : Int) : Ordering :=
  compare (n * power 10 i * power 2 (-j)) (m * power 2 j * power 10 (-i))

/-- Whether a decimal lies among the positive reals that round to `|x|`: between the middles
towards the neighbours, which belong to an even significand. The neighbour below a power of two
is half as far away as the one above. -/
def readsBack (x : Double) (decimal : Decimal) : Bool :=
  let narrow := x.significand = power 2 52 ∧ minExponent < x.exponent
  let low := if narrow then 4 * x.significand - 1 else 4 * x.significand - 2
  let high := 4 * x.significand + 2
  let even := x.significand % 2 == 0
  let atLow := compareScaled decimal.digits decimal.scale low (x.exponent - 2)
  let atHigh := compareScaled decimal.digits decimal.scale high (x.exponent - 2)
  (atLow == .gt || (even && atLow == .eq)) && (atHigh == .lt || (even && atHigh == .eq))

/-- The decimal of the given scale that reads back as `|x|`, if there is one: the nearer of the
two around `|x|`, and the even one when both are as near. -/
def atScale (x : Double) (scale : Int) : Option Decimal :=
  let below := x.significand * power 2 x.exponent * power 10 (-scale) /
    (power 10 scale * power 2 (-x.exponent))
  let low : Decimal := ⟨below, scale⟩
  let high : Decimal := ⟨below + 1, scale⟩
  match x.readsBack low, x.readsBack high with
  | false, false => none
  | true, false => some low
  | false, true => some high
  | true, true =>
    match compareScaled (2 * below + 1) scale (2 * x.significand) x.exponent with
    | .gt => some low
    | .lt => some high
    | .eq => some (if below % 2 = 0 then low else high)

/-- The first of the scales `scale`, `scale - 1`, … at which a decimal reads back, and the exact
value when there is none among the first `tries`. -/
def searchScale (x : Double) : Nat → Int → Decimal
  | 0, _ => ⟨x.significand * power 2 x.exponent * power 5 (-x.exponent), min x.exponent 0⟩
  | tries + 1, scale => (x.atScale scale).getD (searchScale x tries (scale - 1))

/-- The shortest decimal that rounds to `|x|`. The search starts above the first digit and
reaches seventeen digits, which always suffice. -/
def toDecimal (x : Double) : Decimal :=
  if x.significand = 0 then ⟨0, 0⟩
  else
    let bits := x.exponent + x.significand.log2 + 1
    searchScale x 24 ((bits * 30103).fdiv 100000 + 1)

end Double
end DocTree
