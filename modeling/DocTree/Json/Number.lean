import DocTree.Json.Double

/-!
# JSON numbers

A number literal without fraction and exponent is an integer when it fits 64 bits, unsigned or
signed; all others are doubles. An integer never equals a double.

## Main definitions

- `Number`: an integer or a double.
- `Number.ofWord`, `Number.ofDecimal`: the number of a literal.
- `Number.text`: the written form.
-/

namespace DocTree

/-- A JSON number. Integers read from text lie from `-2 ^ 63` up to `2 ^ 64 - 1`. -/
inductive Number where
  | int (value : Int)
  | double (value : Double)
deriving DecidableEq, Repr

namespace Number

/-- Equality of numbers of one sort; an integer and a double always differ. -/
def same : Number → Number → Bool
  | .int x, .int y => x == y
  | .double x, .double y => x.same y
  | _, _ => false

@[simp] theorem same_refl (x : Number) : x.same x = true := by cases x <;> simp [same]

theorem same_comm (x y : Number) : x.same y = y.same x := by
  cases x <;> cases y <;> simp [same, Double.same_comm, Bool.beq_comm]

theorem same_trans {x y z : Number} (hxy : x.same y = true) (hyz : y.same z = true) :
    x.same z = true := by
  cases x <;> cases y <;> cases z <;> simp_all [same]
  exact Double.same_trans hxy hyz

/-! ## Reading -/

/-- The number of a literal with fraction or exponent, or nothing when it is out of range. -/
def ofDecimal (negative : Bool) (decimal : Decimal) : Option Number :=
  (Double.ofDecimal negative decimal).map .double

/-- The number of a literal that is a plain row of digits of 64 bits. Minus zero is a double, and so
is a negative number that a signed word does not hold. -/
def ofWord (negative : Bool) (word : Nat) : Number :=
  if negative then
    if 0 < word ∧ 2 * word ≤ UInt64.size then .int (-word) else .double (.nearest true word 1)
  else .int word

/-! ## Writing -/

/-- The least and the largest exponent of a first digit that are written without exponent. -/
def plainExponents : Int × Int := (-5, 15)

/-- A row of zeros. -/
def zeros (count : Nat) : String := "".pushn '0' count

/-- The digits of a decimal around a point, or one digit before the point and a signed exponent
when the first digit stands outside of `plainExponents`. -/
def decimalText (decimal : Decimal) : String :=
  let digits := Nat.toDigits 10 decimal.digits
  let count := digits.length
  let first := decimal.scale + count - 1
  if plainExponents.1 ≤ first ∧ first ≤ plainExponents.2 then
    if 0 ≤ decimal.scale then
      String.ofList digits ++ zeros decimal.scale.toNat ++ ".0"
    else if 0 ≤ first then
      let whole := first.toNat + 1
      String.ofList (digits.take whole) ++ "." ++ String.ofList (digits.drop whole)
    else
      "0." ++ zeros (-first - 1).toNat ++ String.ofList digits
  else
    let fraction := if count ≤ 1 then "" else "." ++ String.ofList (digits.drop 1)
    let exponent := (if first < 0 then "e-" else "e+") ++ first.natAbs.repr
    String.ofList (digits.take 1) ++ fraction ++ exponent

/-- The written form: an integer in decimal, a double by its shortest digits. -/
def text : Number → String
  | .int value => if value < 0 then "-" ++ value.natAbs.repr else value.natAbs.repr
  | .double value => (if value.negative then "-" else "") ++ decimalText value.toDecimal

end Number
end DocTree
