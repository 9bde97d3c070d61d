import Collections.Table

set_option autoImplicit false

namespace Collections

namespace Handle

variable {α : Type}

theorem index_inj {left right : Handle α} : left.index = right.index ↔ left = right := by
  cases left
  cases right
  simp

end Handle

namespace Table

variable {α : Type}

def cell? (table : Table α) (handle : Handle α) : Option α := table.cells[handle.index]?

theorem get_of_cell? [Inhabited α] {table : Table α} {handle : Handle α} {cell : α}
    (there : table.cell? handle = some cell) : table.get handle = cell := by
  unfold cell? at there
  simp [get, Array.getD_eq_getD_getElem?, there]

theorem get_of_cell?_eq_none [Inhabited α] {table : Table α} {handle : Handle α}
    (missing : table.cell? handle = none) : table.get handle = default := by
  unfold cell? at missing
  simp [get, Array.getD_eq_getD_getElem?, missing]

theorem get_congr [Inhabited α] {early late : Table α} {handle : Handle α}
    (same : late.cell? handle = early.cell? handle) : late.get handle = early.get handle := by
  unfold cell? at same
  simp only [get, Array.getD_eq_getD_getElem?, same]

theorem cell?_add (table : Table α) (cell : α) (handle : Handle α) :
    (table.add cell).1.cell? handle =
      if handle = (table.add cell).2 then some cell else table.cell? handle := by
  unfold cell? add
  rw [Array.getElem?_push]
  simp only [← Handle.index_inj]

theorem cell?_modify (table : Table α) (changed : Handle α) (step : α → α) (handle : Handle α) :
    (table.modify changed step).cell? handle =
      if handle = changed then (table.cell? handle).map step else table.cell? handle := by
  unfold cell? modify
  rw [Array.getElem?_modify]
  simp only [← Handle.index_inj, eq_comm]

theorem eq_of_cells {early late : Table α} (same : ∀ handle, late.cell? handle = early.cell? handle) :
    late = early := by
  cases early
  cases late
  exact congrArg Table.mk (Array.ext_getElem? fun index => same ⟨index⟩)

theorem modify_congr {table : Table α} {handle : Handle α} {cell : α} {first second : α → α}
    (there : table.cell? handle = some cell) (same : first cell = second cell) :
    table.modify handle first = table.modify handle second := by
  refine eq_of_cells fun other => ?_
  rw [cell?_modify, cell?_modify]
  split
  next found => rw [found, there, Option.map_some, Option.map_some, same]
  next => rfl

theorem modify_self {table : Table α} {handle : Handle α} {cell : α} {step : α → α}
    (there : table.cell? handle = some cell) (same : step cell = cell) :
    table.modify handle step = table := by
  refine eq_of_cells fun other => ?_
  rw [cell?_modify]
  split
  next found => rw [found, there, Option.map_some, same]
  next => rfl

theorem modify_missing {table : Table α} {handle : Handle α} {step : α → α}
    (missing : table.cell? handle = none) : table.modify handle step = table := by
  refine eq_of_cells fun other => ?_
  rw [cell?_modify]
  split
  next found => rw [found, missing, Option.map_none]
  next => rfl

theorem modify_modify (table : Table α) (handle : Handle α) (first second : α → α) :
    (table.modify handle first).modify handle second = table.modify handle (second ∘ first) := by
  refine eq_of_cells fun other => ?_
  simp only [cell?_modify]
  split
  · rw [Option.map_map]
  · rfl

theorem cell?_fresh (table : Table α) (cell : α) : table.cell? (table.add cell).2 = none := by
  simp [cell?, add]

theorem cell?_added (table : Table α) (cell : α) :
    (table.add cell).1.cell? (table.add cell).2 = some cell := by
  rw [cell?_add, if_pos rfl]

section Adding

variable {table : Table α} {handle : Handle α} {cell : α}
  (there : table.cell? handle = some cell) (other : α)

include there

theorem added_ne : (table.add other).2 ≠ handle := by
  rintro rfl
  rw [cell?_fresh] at there
  cases there

theorem cell?_add_of_there : (table.add other).1.cell? handle = some cell := by
  rw [cell?_add, if_neg (added_ne there other).symm, there]

end Adding

end Table

end Collections
