import Collections.Value

set_option autoImplicit false

namespace Collections

structure ComparatorId where
  index : Nat
  deriving DecidableEq

structure OrderedSet where
  items : Array Value := #[]
  -- Without a comparator the items are in their natural order.
  comparator : Option ComparatorId := none
  destructor : Option String := none
  deriving DecidableEq

instance : Inhabited OrderedSet := ⟨{}⟩

namespace OrderedSet

def item (set : OrderedSet) (position : Nat) : Value := set.items.getD position .undefined

def insertAt (set : OrderedSet) (position : Nat) (value : Value) : OrderedSet :=
  { set with items := set.items.insertIdx (min position set.items.size) value (by omega) }

def eraseAt (set : OrderedSet) (position : Nat) : OrderedSet :=
  { set with items := set.items.eraseIdxIfInBounds position }

def first (set : OrderedSet) : Value := set.item 0

def last (set : OrderedSet) : Value := set.items.back?.getD .undefined

def cleared (set : OrderedSet) : OrderedSet := { set with items := #[] }

end OrderedSet

structure Window where
  low : Nat
  high : Nat

namespace Window

-- Positions are added in 32 bits.
def middle (window : Window) : Nat := (window.low + window.high) % (1 <<< 32) / 2

def above (window : Window) : Window := { window with low := window.middle + 1 }

def below (window : Window) : Window := { window with high := window.middle }

def Narrows (window : Window) : Prop := window.low ≤ window.middle ∧ window.middle < window.high

instance (window : Window) : Decidable window.Narrows := by
  unfold Narrows
  infer_instance

def width (window : Window) : Nat := window.high - window.low

theorem width_above_lt (window : Window) (narrows : window.Narrows) :
    window.above.width < window.width := by
  simp only [Narrows, above, width] at *
  omega

theorem width_below_lt (window : Window) (narrows : window.Narrows) :
    window.below.width < window.width := by
  simp only [Narrows, below, width] at *
  omega

end Window

end Collections
