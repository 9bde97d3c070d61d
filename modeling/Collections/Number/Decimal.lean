import Collections.Number

set_option autoImplicit false

namespace Collections

structure Decimal where
  coefficient : Nat
  exponent : Int
  deriving DecidableEq

namespace Decimal

def steps (units : Nat) (exponent : Int) : Nat × Nat :=
  if 0 ≤ exponent then (units, Number.one * Nat.pow 10 exponent.toNat)
  else (units * Nat.pow 10 (-exponent).toNat, Number.one)

def digitCount (value : Nat) : Nat :=
  if value < 10 then 1 else digitCount (value / 10) + 1

def position (decimal : Decimal) : Int := decimal.exponent + digitCount decimal.coefficient

/--
The number nearest to the value. From `10 ^ 309` on a value is infinite, and below `10 ^ -324` it is
zero, so that the powers of ten that are computed stay small.
-/
def toNumber (negative : Bool) (decimal : Decimal) : Number :=
  if decimal.coefficient = 0 ∨ decimal.position ≤ -324 then .zero negative
  else if 310 ≤ decimal.position then .infinite negative
  else if 0 ≤ decimal.exponent then
    .ofScaled negative (decimal.coefficient * Nat.pow 10 decimal.exponent.toNat) Number.oneExponent
  else
    .nearest negative (decimal.coefficient * Number.one) (Nat.pow 10 (-decimal.exponent).toNat)

def trimmed (decimal : Decimal) : Decimal :=
  if trailing : decimal.coefficient ≠ 0 ∧ decimal.coefficient % 10 = 0 then
    trimmed ⟨decimal.coefficient / 10, decimal.exponent + 1⟩
  else
    decimal
termination_by decimal.coefficient
decreasing_by omega

def digitsValue (digits : List Char) : Nat :=
  digits.foldl (fun value digit => value * 10 + (digit.toNat - '0'.toNat)) 0

-- The exponent part: a mark, an optional sign and at least one digit.
def readExponent? : List Char → Option Int
  | [] => some 0
  | mark :: rest =>
      if mark = 'e' ∨ mark = 'E' then
        let (negative, digits) :=
          match rest with
          | '-' :: digits => (true, digits)
          | '+' :: digits => (false, digits)
          | digits => (false, digits)
        if digits.isEmpty || !digits.all Char.isDigit then none
        else some (if negative then -(digitsValue digits : Int) else digitsValue digits)
      else none

def read? (text : List Char) : Option Decimal :=
  let whole := text.takeWhile Char.isDigit
  let afterWhole := text.dropWhile Char.isDigit
  let (fraction, rest) :=
    match afterWhole with
    | '.' :: rest => (rest.takeWhile Char.isDigit, rest.dropWhile Char.isDigit)
    | rest => ([], rest)
  if whole.isEmpty && fraction.isEmpty then none
  else
    (readExponent? rest).map fun exponent =>
      ⟨digitsValue (whole ++ fraction), exponent - fraction.length⟩

end Decimal

namespace Number

def magnitude (number : Number) : Nat :=
  match number.units? with
  | some units => units.natAbs
  | none => 0

def pointPosition (units : Nat) : Int :=
  Decimal.digitCount (units * Nat.pow 10 324 / one) - 324

def decimalOf? (number : Number) (position : Int) (digits : Nat) : Option Decimal :=
  let exponent := position - digits
  let (numerator, denominator) := Decimal.steps number.magnitude exponent
  let below := numerator / denominator
  let belowReads := Decimal.toNumber false ⟨below, exponent⟩ == number.abs
  let aboveReads := Decimal.toNumber false ⟨below + 1, exponent⟩ == number.abs
  if belowReads && aboveReads then some ⟨roundHalfEven numerator denominator, exponent⟩
  else if belowReads then some ⟨below, exponent⟩
  else if aboveReads then some ⟨below + 1, exponent⟩
  else none

-- A whole number of at most 53 bits is one or more away from any other and needs its digits.
def ownDigits? (number : Number) : Option Decimal :=
  match number.toInt? with
  | some value =>
      if value.natAbs < 1 <<< 53 ∧ Decimal.toNumber false ⟨value.natAbs, 0⟩ = number.abs then
        some ⟨value.natAbs, 0⟩
      else none
  | none => none

-- No finite number has more than 800 significant digits, so the search ends before its bound.
def searchDigits? (number : Number) : Option Decimal :=
  let position := pointPosition number.magnitude
  (List.range 800).findSome? fun count => number.decimalOf? position (count + 1)

def shortest (number : Number) : Decimal :=
  ((number.ownDigits? <|> number.searchDigits?).getD ⟨0, 0⟩).trimmed

def signedText (negative : Bool) (text : String) : String :=
  if negative then "-" ++ text else text

def zeros (count : Nat) : List Char := List.replicate count '0'

/--
Digits `d₁d₂…` that stand for `0.d₁d₂… * 10 ^ position`: positional from `0.000001` up to twenty-one
digits before the point, else one digit before the point and a signed exponent.
-/
def layout (digits : List Char) (position : Int) : String :=
  if digits.length ≤ position ∧ position ≤ 21 then
    String.ofList (digits ++ zeros (position.toNat - digits.length))
  else if 0 < position ∧ position ≤ 21 then
    String.ofList (digits.take position.toNat ++ '.' :: digits.drop position.toNat)
  else if -6 < position ∧ position ≤ 0 then
    String.ofList ('0' :: '.' :: zeros (-position).toNat ++ digits)
  else
    let exponent := position - 1
    let sign := if exponent < 0 then "-" else "+"
    let head := String.ofList (digits.take 1)
    let tail := digits.drop 1
    let fraction := if tail.isEmpty then "" else "." ++ String.ofList tail
    head ++ fraction ++ "e" ++ sign ++ toString exponent.natAbs

def toText (number : Number) : String :=
  match number with
  | .nan => "NaN"
  | .infinite negative => signedText negative "Infinity"
  | .finite negative significand _ _ =>
      if significand = 0 then "0"
      else
        let decimal := number.shortest
        let digits := Nat.toDigits 10 decimal.coefficient
        signedText negative (layout digits (digits.length + decimal.exponent))

def ofUnsignedText? (negative : Bool) (text : List Char) : Option Number :=
  if text = "Infinity".toList then some (.infinite negative)
  else (Decimal.read? text).map (Decimal.toNumber negative)

def ofText? (text : String) : Option Number :=
  match text.toList with
  | '-' :: rest => ofUnsignedText? true rest
  | characters => if characters = "NaN".toList then some .nan else ofUnsignedText? false characters

end Number

end Collections
