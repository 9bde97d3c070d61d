set_option autoImplicit false

namespace Collections

structure Handle (α : Type) where
  index : Nat

instance {α : Type} : DecidableEq (Handle α) := fun left right =>
  decidable_of_iff (left.index = right.index) (by cases left; cases right; simp)

structure Table (α : Type) where
  cells : Array α := #[]

instance {α : Type} : Inhabited (Table α) := ⟨{}⟩

namespace Table

variable {α : Type}

def get [Inhabited α] (table : Table α) (handle : Handle α) : α :=
  table.cells.getD handle.index default

def modify (table : Table α) (handle : Handle α) (step : α → α) : Table α :=
  ⟨table.cells.modify handle.index step⟩

def set (table : Table α) (handle : Handle α) (cell : α) : Table α :=
  ⟨table.cells.setIfInBounds handle.index cell⟩

def add (table : Table α) (cell : α) : Table α × Handle α :=
  (⟨table.cells.push cell⟩, ⟨table.cells.size⟩)

end Table

end Collections
