set_option autoImplicit false

/-!
Binary floating-point numbers of 64 bits as exact values.

A finite number is a sign, a significand and an exponent. It stands for `significand * 2 ^
exponent` units, one unit being the least positive number, `2 ^ -1074`. Every finite number is
therefore a whole number of units: numbers are compared, subtracted and tested on integers. What is
not exact is rounded to the nearest number, quotients by `nearest` and whole counts of units by
`ofScaled`.
-/

namespace Collections

-- Finite significands have 53 bits; below the least normal number they lose leading bits.
def Canonical (significand exponent : Nat) : Prop :=
  significand < 1 <<< 53 ∧ exponent ≤ 2045 ∧ (exponent = 0 ∨ 1 <<< 52 ≤ significand)

instance (significand exponent : Nat) : Decidable (Canonical significand exponent) := by
  unfold Canonical
  infer_instance

inductive Number where
  | nan
  | infinite (negative : Bool)
  | finite (negative : Bool) (significand exponent : Nat)
      (canonical : Canonical significand exponent)
  deriving DecidableEq

namespace Number

def oneExponent : Nat := 1074

def one : Nat := 1 <<< oneExponent

theorem canonical_zero : Canonical 0 0 := by decide

def zero (negative : Bool) : Number := .finite negative 0 0 canonical_zero

instance : Inhabited Number := ⟨zero false⟩

-- Too large a value becomes infinite.
def ofParts (negative : Bool) (significand exponent : Nat) : Number :=
  if canonical : Canonical significand exponent then
    .finite negative significand exponent canonical
  else
    .infinite negative

def roundHalfEven (numerator denominator : Nat) : Nat :=
  let quotient := numerator / denominator
  let doubled := 2 * (numerator % denominator)
  if doubled < denominator then quotient
  else if doubled = denominator then quotient + quotient % 2
  else quotient + 1

def nearest (negative : Bool) (numerator denominator : Nat) : Number :=
  let exponent := Nat.log2 (numerator / denominator) - 52
  let significand := roundHalfEven numerator (denominator <<< exponent)
  if significand = 1 <<< 53 then ofParts negative (1 <<< 52) (exponent + 1)
  else ofParts negative significand exponent

def ofScaled (negative : Bool) (mantissa exponent : Nat) : Number :=
  if mantissa = 0 then zero negative
  else if mantissa < 1 <<< 53 then
    let room := min exponent (52 - Nat.log2 mantissa)
    ofParts negative (mantissa <<< room) (exponent - room)
  else
    let excess := Nat.log2 mantissa - 52
    let significand := roundHalfEven mantissa (1 <<< excess)
    if significand = 1 <<< 53 then ofParts negative (1 <<< 52) (exponent + excess + 1)
    else ofParts negative significand (exponent + excess)

def ofInt (value : Int) : Number := ofScaled (value < 0) value.natAbs oneExponent

def ofNat (value : Nat) : Number := ofScaled false value oneExponent

-- The exact value of a finite number, in units.
def units? : Number → Option Int
  | .finite negative significand exponent _ =>
      let magnitude : Int := (significand <<< exponent : Nat)
      some (if negative then -magnitude else magnitude)
  | _ => none

def isZero : Number → Bool
  | .finite _ significand _ _ => significand == 0
  | _ => false

def isNegativeZero : Number → Bool
  | .finite negative significand _ _ => negative && significand == 0
  | _ => false

def signed : Number → Bool
  | .nan => false
  | .infinite negative => negative
  | .finite negative _ _ _ => negative

def negate : Number → Number
  | .nan => .nan
  | .infinite negative => .infinite !negative
  | .finite negative significand exponent canonical =>
      .finite (!negative) significand exponent canonical

def abs : Number → Number
  | .nan => .nan
  | .infinite _ => .infinite false
  | .finite _ significand exponent canonical => .finite false significand exponent canonical

def toInt? (number : Number) : Option Int :=
  match number with
  | .finite negative significand exponent _ =>
      let signed (magnitude : Nat) : Int := if negative then -magnitude else magnitude
      if oneExponent ≤ exponent then some (signed (significand <<< (exponent - oneExponent)))
      else
        let whole := significand >>> (oneExponent - exponent)
        if whole <<< (oneExponent - exponent) = significand then some (signed whole) else none
  | _ => none

def toNat? (number : Number) : Option Nat :=
  match number.toInt? with
  | some (.ofNat value) => some value
  | _ => none

def greatestCount : Nat := (1 <<< 53) - 1

-- The count that a number stands for. Fractions are cut off, and what is below zero, or not a number,
-- counts nothing.
def toCount (number : Number) : Nat :=
  match number with
  | .infinite false => greatestCount
  | number =>
      match number.units? with
      | some units => min (units / one).toNat greatestCount
      | none => 0

def naturalsBelow (number : Number) : Nat :=
  match number.units? with
  | some units => (-(-units / one)).toNat
  | none => 0

-- Where a number stands in the exact order: below every number, at a whole count of units, or above
-- every number. What is not a number has no place.
def place? : Number → Option (Int × Int)
  | .nan => none
  | .infinite true => some (-1, 0)
  | .infinite false => some (1, 0)
  | .finite negative significand exponent canonical =>
      (Number.finite negative significand exponent canonical).units?.map (fun units => (0, units))

-- Places are compared by tier, then by units.
def placeLess (left right : Int × Int) : Bool :=
  left.1 < right.1 || (left.1 == right.1 && left.2 < right.2)

-- Magnitudes compare by exponent, then by significand, because significands are canonical.
def magnitudeLess (leftSignificand leftExponent rightSignificand rightExponent : Nat) : Bool :=
  leftExponent < rightExponent ||
    (leftExponent == rightExponent && leftSignificand < rightSignificand)

def less (left right : Number) : Bool :=
  match left, right with
  | .nan, _ | _, .nan => false
  | .infinite leftSign, .infinite rightSign => leftSign && !rightSign
  | .infinite leftSign, .finite .. => leftSign
  | .finite .., .infinite rightSign => !rightSign
  | .finite false leftSignificand leftExponent _, .finite false rightSignificand rightExponent _ =>
      magnitudeLess leftSignificand leftExponent rightSignificand rightExponent
  | .finite true leftSignificand leftExponent _, .finite true rightSignificand rightExponent _ =>
      magnitudeLess rightSignificand rightExponent leftSignificand leftExponent
  | .finite true leftSignificand _ _, .finite false rightSignificand _ _ =>
      leftSignificand != 0 || rightSignificand != 0
  | .finite false .., .finite true .. => false

def same (left right : Number) : Bool :=
  match left, right with
  | .nan, _ | _, .nan => false
  | left, right => (left.isZero && right.isZero) || left == right

/--
How the difference of two numbers reads as the answer of a comparison. A difference is below zero or
zero exactly if its operands compare so; what is not a number is neither below nor equal, and no use
of an answer asks for more, so it counts as above.
-/
def differenceOrder (left right : Number) : Ordering :=
  match left, right with
  | .infinite _, .infinite _ => if left.less right then .lt else .gt
  | _, _ => if left.less right then .lt else if left.same right then .eq else .gt

def align (leftSignificand leftExponent rightSignificand rightExponent : Nat) : Nat × Nat × Nat :=
  let exponent := min leftExponent rightExponent
  (leftSignificand <<< (leftExponent - exponent), rightSignificand <<< (rightExponent - exponent),
    exponent)

-- A difference of zero is negative only when a negative zero loses a positive one.
def sub (left right : Number) : Number :=
  match left, right with
  | .nan, _ | _, .nan => .nan
  | .infinite leftSign, .infinite rightSign =>
      if leftSign = rightSign then .nan else .infinite leftSign
  | .infinite leftSign, _ => .infinite leftSign
  | _, .infinite rightSign => .infinite !rightSign
  | .finite leftSign leftSignificand leftExponent _,
      .finite rightSign rightSignificand rightExponent _ =>
      let (leftMagnitude, rightMagnitude, exponent) :=
        align leftSignificand leftExponent rightSignificand rightExponent
      let leftUnits : Int := if leftSign then -leftMagnitude else leftMagnitude
      let rightUnits : Int := if rightSign then -rightMagnitude else rightMagnitude
      let difference := leftUnits - rightUnits
      if difference = 0 then zero (leftSign && !rightSign)
      else ofScaled (difference < 0) difference.natAbs exponent

def add (left right : Number) : Number := left.sub right.negate

def mul (left right : Number) : Number :=
  let negative := left.signed != right.signed
  match left, right with
  | .nan, _ | _, .nan => .nan
  | .infinite _, other | other, .infinite _ =>
      if other.isZero then .nan else .infinite negative
  | .finite _ leftSignificand leftExponent _, .finite _ rightSignificand rightExponent _ =>
      let product := leftSignificand * rightSignificand
      let exponent := leftExponent + rightExponent
      if oneExponent ≤ exponent then ofScaled negative product (exponent - oneExponent)
      else nearest negative product (1 <<< (oneExponent - exponent))

def div (left right : Number) : Number :=
  let negative := left.signed != right.signed
  match left, right with
  | .nan, _ | _, .nan => .nan
  | .infinite _, .infinite _ => .nan
  | .infinite _, _ => .infinite negative
  | _, .infinite _ => zero negative
  | _, _ =>
      match left.units?, right.units? with
      | some leftUnits, some rightUnits =>
          if rightUnits = 0 then (if leftUnits = 0 then .nan else .infinite negative)
          else nearest negative (leftUnits.natAbs * one) rightUnits.natAbs
      | _, _ => .nan

def rem (left right : Number) : Number :=
  match left, right with
  | .nan, _ | _, .nan => .nan
  | .infinite _, _ => .nan
  | _, .infinite _ => left
  | .finite negative leftSignificand leftExponent _,
      .finite _ rightSignificand rightExponent _ =>
      if rightSignificand = 0 then .nan
      else
        let (leftMagnitude, rightMagnitude, exponent) :=
          align leftSignificand leftExponent rightSignificand rightExponent
        ofScaled negative (leftMagnitude % rightMagnitude) exponent

def floor (number : Number) : Number :=
  match number.units? with
  | some units => if units = 0 then number else ofInt (units / one)
  | none => number

end Number

def floorQuotient (dividend divisor : Number) : Number := (dividend.div divisor).floor

end Collections
