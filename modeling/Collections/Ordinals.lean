import Collections.Text.CodeUnits
import Collections.Value

set_option autoImplicit false

namespace Collections

-- The identities that have been compared, in the order of their first comparison.
structure Ordinals where
  known : List Value := []
  deriving DecidableEq

namespace Ordinals

def ordinal (ordinals : Ordinals) (identity : Value) : Nat × Ordinals :=
  match ordinals.known.idxOf? identity with
  | some position => (position, ordinals)
  | none => (ordinals.known.length, ⟨ordinals.known ++ [identity]⟩)

end Ordinals

namespace Value

def rank : Value → Int
  | .undefined => 0
  | .null => 1
  | .bool _ => 2
  | .number _ | .integer _ => 3
  | .text _ => 4
  | .symbol _ => 5
  | .object _ | .intrinsic _ => 6

end Value

def signOf : Ordering → Int
  | .lt => -1
  | .eq => 0
  | .gt => 1

-- Exact comparison of numeric values; what is not a number is below everything and equals itself.
def compareNumeric (left right : Value) : Int :=
  match left.place?, right.place? with
  | none, none => 0
  | none, some _ => -1
  | some _, none => 1
  | some leftPlace, some rightPlace =>
      if Number.placeLess leftPlace rightPlace then -1
      else if Number.placeLess rightPlace leftPlace then 1
      else 0

def compareReferences (ordinals : Ordinals) (left right : Value) : Int × Ordinals :=
  let (leftOrdinal, afterLeft) := ordinals.ordinal left
  let (rightOrdinal, afterRight) := afterLeft.ordinal right
  ((leftOrdinal : Int) - rightOrdinal, afterRight)

def compareNatural (ordinals : Ordinals) (left right : Value) : Int × Ordinals :=
  if left.identical right then (0, ordinals)
  else if left.rank ≠ right.rank then (left.rank - right.rank, ordinals)
  else
    match left, right with
    | .bool leftValue, .bool rightValue =>
        ((leftValue.toNat : Int) - rightValue.toNat, ordinals)
    | .text leftText, .text rightText => (signOf (Text.order leftText rightText), ordinals)
    | .symbol _, _ | .object _, _ | .intrinsic _, _ => compareReferences ordinals left right
    | _, _ => (compareNumeric left right, ordinals)

def compareEach (ordinals : Ordinals) : List (Value × Value) → List Int
  | [] => []
  | (left, right) :: rest =>
      let (sign, after) := compareNatural ordinals left right
      sign :: compareEach after rest

end Collections
