import Collections.Heap.Primitive
import Collections.Reply

set_option autoImplicit false

namespace Collections

def Operand.place? : Operand → Option (Int × Int)
  | .number held => held.place?
  | .integer held => (Value.integer held).place?

namespace Heap

/--
How the difference of two values reads as the answer of a comparison. A difference of integers is an
integer and as such never the number zero, so equal integers count as above.
-/
def difference (heap : Heap) (left right : Value) : Except Failure Reply := do
  match ← heap.operand left, ← heap.operand right with
  | .number left, .number right => return { order := left.differenceOrder right }
  | .integer left, .integer right =>
      return { order := if left < right then .lt else .gt, integer := true }
  | _, _ => throw (.misuse .mixedIntegers)

def quotient (heap : Heap) (dividend divisor : Value) : Except Failure Number := do
  match ← heap.operand dividend, ← heap.operand divisor with
  | .number dividend, .number divisor => return floorQuotient dividend divisor
  | .integer _, .integer 0 => throw (.excess .quotient)
  | .integer _, .integer _ => throw (.misuse .integerAsNumber)
  | _, _ => throw (.misuse .mixedIntegers)

def sum (heap : Heap) (left : Value) (right : Number) : Except Failure Value := do
  match ← heap.primitive .number left with
  | .text content => return .text (content ++ right.toText)
  | left =>
      match ← left.primitiveOperand with
      | .number left => return .number (left.add right)
      | .integer _ => throw (.misuse .mixedIntegers)

def distance (heap : Heap) (upper lower : Value) : Except Failure Operand := do
  match ← heap.operand upper, ← heap.operand lower with
  | .number upper, .number lower => return .number (upper.sub lower)
  | .integer upper, .integer lower => return .integer (upper - lower)
  | _, _ => throw (.misuse .mixedIntegers)

def drawBetween (heap : Heap) (uniform lower upper : Value) : Except Failure Value := do
  match ← heap.distance upper lower, ← heap.operand uniform with
  | .number distance, .number uniform => heap.sum lower (uniform.mul distance).floor
  | .integer _, .integer _ => throw (.misuse .integerAsNumber)
  | _, _ => throw (.misuse .mixedIntegers)

def remainder (heap : Heap) (divisor : Number) (value : Value) : Except Failure Number := do
  match ← heap.operand value with
  | .number held => return held.rem divisor
  | .integer _ => throw (.misuse .mixedIntegers)

def magnitude (heap : Heap) (value : Value) : Except Failure Number := do
  return (← (← heap.operand value).toNumber).abs

def arrayLength (heap : Heap) (value : Value) : Except Failure Nat := do
  match (← (← heap.operand value).toNumber).toNat?.filter (· < 1 <<< 32) with
  | some length => return length
  | none => throw (.excess .length)

/--
Whether a value is above another: of two texts by their units, of an integer and a text by the
integer that the text spells, else by exact value. What is not a number is above nothing and below
nothing.
-/
def isAbove (heap : Heap) (left right : Value) : Except Failure Bool := do
  match ← heap.primitive .number left, ← heap.primitive .number right with
  | .text left, .text right => return Text.order left right == .gt
  | .integer left, .text right => return (Numeral.integer? right).any (· < left)
  | .text left, .integer right => return (Numeral.integer? left).any (right < ·)
  | left, right =>
      match (← left.primitiveOperand).place?, (← right.primitiveOperand).place? with
      | some leftPlace, some rightPlace => return Number.placeLess rightPlace leftPlace
      | _, _ => return false

end Heap

end Collections
