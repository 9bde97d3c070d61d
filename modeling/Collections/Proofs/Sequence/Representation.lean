import Collections.Proofs.Sequence.Steps

set_option autoImplicit false

namespace Collections.Sequence

variable {Outside : Type} {callbacks : Callbacks Outside}

def StandsFor (held : Sequence) : Option (List Value) → Prop
  | some values => held.Shows values
  | none => held.destroyed ∧ held.length = 0

theorem StandsFor.unique {held : Sequence} {entry other : Option (List Value)}
    (stands : StandsFor held entry) (too : StandsFor held other) : entry = other := by
  cases entry with
  | none =>
    cases other with
    | none => rfl
    | some values =>
      have live := too.live
      rw [stands.1] at live
      cases live
  | some values =>
    cases other with
    | none =>
      have live := stands.live
      rw [too.1] at live
      cases live
    | some others => rw [← stands.elements_eq, ← too.elements_eq]

def Represents (world : World) (state : State Outside) : Prop :=
  ∀ list, Option.Rel StandsFor (state.containers.lists.cell? list) world[list.index]?

section Representing

variable {world : World} {before after : State Outside} {list : Handle Sequence}
  {values : List Value}

namespace Represents

theorem start (blank : before.containers.lists = {}) : Represents [] before := by
  intro list
  rw [blank]
  exact .none

theorem absent_iff (represents : Represents world before) (list : Handle Sequence) :
    before.containers.lists.cell? list = none ↔ world[list.index]? = none := by
  have related := represents list
  revert related
  generalize before.containers.lists.cell? list = cell
  generalize world[list.index]? = entry
  rintro (_ | _) <;> simp

theorem size_eq (represents : Represents world before) :
    before.containers.lists.cells.size = world.length := by
  have past (index : Nat) : before.containers.lists.cells.size ≤ index ↔ world.length ≤ index := by
    rw [← Array.getElem?_eq_none_iff, ← List.getElem?_eq_none_iff]
    exact represents.absent_iff ⟨index⟩
  exact Nat.le_antisymm ((past world.length).2 (Nat.le_refl _))
    ((past before.containers.lists.cells.size).1 (Nat.le_refl _))

theorem index_lt {world : World} (live : world.elements? list = some values) :
    list.index < world.length := by
  have entry : world[list.index]? = some (some values) := Option.join_eq_some_iff.1 live
  exact (List.getElem?_eq_some_iff.1 entry).1

theorem showing (represents : Represents world before)
    (live : world.elements? list = some values) : Showing list values before := by
  have entry : world[list.index]? = some (some values) := Option.join_eq_some_iff.1 live
  have related := represents list
  rw [entry] at related
  revert related
  generalize there : before.containers.lists.cell? list = cell
  rintro ⟨shows⟩
  exact ⟨_, there, shows⟩

theorem dead (represents : Represents world before) (dead : world.elements? list = none) :
    (before.containers.lists.get list).destroyed ∧
      (before.containers.lists.get list).length = 0 := by
  have related := represents list
  revert related
  generalize there : before.containers.lists.cell? list = cell
  generalize entry : world[list.index]? = told
  intro related
  cases related with
  | some stands =>
    rw [Table.get_of_cell? there]
    unfold World.elements? at dead
    rw [entry, Option.join_some] at dead
    rwa [dead] at stands
  | none =>
    rw [Table.get_of_cell?_eq_none there]
    exact ⟨rfl, rfl⟩

theorem elements_eq (represents : Represents world before) (list : Handle Sequence) :
    (before.containers.lists.get list).elements = world.elements list := by
  unfold World.elements
  cases found : world.elements? list with
  | some values => exact (represents.showing found).get_shows.elements_eq
  | none =>
    unfold Sequence.elements
    rw [(represents.dead found).2]
    rfl

theorem requireLive_dead (represents : Represents world before)
    (dead : world.elements? list = none) (operation : ListOperation) :
    requireLive list operation before = .error (.list (.destroyed operation)) before := by
  change (if (before.containers.lists.get list).destroyed then
    throw (.list (.destroyed operation)) else pure () : Action Outside Unit) before = _
  rw [if_pos (represents.dead dead).1]
  rfl

theorem becomes {held : Sequence} {entry : Option (List Value)}
    (represents : Represents world before) (made : list.index < world.length)
    (others : ∀ other, other ≠ list →
      after.containers.lists.cell? other = before.containers.lists.cell? other)
    (there : after.containers.lists.cell? list = some held) (stands : StandsFor held entry) :
    Represents (world.set list.index entry) after := by
  intro other
  by_cases same : other = list
  · rw [same, there, List.getElem?_set_self made]
    exact .some stands
  · have apart : list.index ≠ other.index := fun index => same (Handle.index_inj.1 index.symm)
    rw [others other same, List.getElem?_set_ne apart]
    exact represents other

theorem put (represents : Represents world before) (made : list.index < world.length)
    (changed : before.ChangesOnly callbacks list after ∧ Showing list values after) :
    Represents (world.put list values) after := by
  obtain ⟨changes, held, there, shows⟩ := changed
  exact represents.becomes made changes.others there shows

theorem makes (represents : Represents world before) (fresh : list.index = world.length)
    (others : ∀ other, other ≠ list →
      after.containers.lists.cell? other = before.containers.lists.cell? other)
    (showing : Showing list values after) : Represents (world ++ [some values]) after := by
  intro other
  by_cases same : other = list
  · obtain ⟨held, there, shows⟩ := showing
    rw [same, there, fresh, List.getElem?_concat_length]
    exact .some shows
  · have apart : other.index ≠ world.length :=
      fun index => same (Handle.index_inj.1 (index.trans fresh.symm))
    rw [others other same]
    have related := represents other
    rcases Nat.lt_or_gt_of_ne apart with inside | past
    · rwa [List.getElem?_append_left inside]
    · rw [List.getElem?_eq_none (by omega)] at related
      rwa [List.getElem?_eq_none (by simp; omega)]

theorem of_containers_eq (represents : Represents world before)
    (same : after.containers = before.containers) : Represents world after := by
  unfold Represents
  rwa [same]

theorem unique {other : World} (represents : Represents world before)
    (others : Represents other before) : world = other := by
  refine List.ext_getElem? fun index => ?_
  have left := represents ⟨index⟩
  have right := others ⟨index⟩
  revert left right
  generalize before.containers.lists.cell? ⟨index⟩ = cell
  generalize world[index]? = entry
  generalize other[index]? = another
  rintro (stands | _) (too | _)
  · rw [stands.unique too]
  · rfl

end Represents

end Representing

end Collections.Sequence
