set_option autoImplicit false

namespace Collections.StableSort

inductive Direction where
  | forward
  | backward
  deriving DecidableEq

def Direction.middle (direction : Direction) (low high : Nat) : Nat :=
  match direction with
  | .forward => low + (high - low) / 2
  | .backward => low + (high - low - 1) / 2

theorem Direction.le_middle (direction : Direction) (low high : Nat) :
    low ≤ direction.middle low high := by
  cases direction <;> simp [middle]

theorem Direction.middle_lt (direction : Direction) {low high : Nat} (inside : low < high) :
    direction.middle low high < high := by
  cases direction <;> simp only [middle] <;> omega

variable {α : Type} {m : Type → Type} [Monad m]

@[specialize]
def narrow (passes : α → m Bool) (direction : Direction) (items : List α) (low high : Nat) :
    m Nat :=
  if _ : low < high then
    match items[direction.middle low high]? with
    | none => return low
    | some item => do
        if ← passes item then narrow passes direction items (direction.middle low high + 1) high
        else narrow passes direction items low (direction.middle low high)
  else return low
termination_by high - low
decreasing_by
  · have := direction.le_middle low high
    omega
  · have := direction.middle_lt ‹low < high›
    omega

@[specialize]
def probe (passes : α → m Bool) (direction : Direction) (items : List α) (last offset : Nat) :
    m Nat :=
  if inside : offset < items.length then do
    if ← passes items[offset] then probe passes direction items offset (2 * offset + 1)
    else narrow passes direction items (last + 1) offset
  else narrow passes direction items (last + 1) items.length
termination_by items.length - offset

@[specialize]
def gallop (passes : α → m Bool) (direction : Direction) (items : List α) : m Nat :=
  match items with
  | [] => return 0
  | first :: _ => do
      if ← passes first then probe passes direction items 0 1
      else return 0

end Collections.StableSort
