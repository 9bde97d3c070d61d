import Collections.OrderedSet.Operations
import Collections.Proofs.NaturalOrder
import Collections.Proofs.Outcome
import Collections.Proofs.Table

set_option autoImplicit false

namespace Collections

variable {Outside : Type}

namespace State

structure Advances (early late : State Outside) : Prop where
  containers : late.containers = early.containers
  ordinals : early.ordinals ≤ late.ordinals

structure SetBecomes (early : State Outside) (set : Handle OrderedSet) (held : OrderedSet)
    (late : State Outside) : Prop where
  sets : ∀ other, late.containers.sets.cell? other =
    if other = set then some held else early.containers.sets.cell? other
  lists : late.containers.lists = early.containers.lists
  ordinals : early.ordinals ≤ late.ordinals

variable {first second third : State Outside} {set : Handle OrderedSet} {held earlier : OrderedSet}

theorem Advances.refl (state : State Outside) : state.Advances state :=
  ⟨rfl, Ordinals.le_refl state.ordinals⟩

theorem Advances.trans (early : first.Advances second) (late : second.Advances third) :
    first.Advances third :=
  ⟨late.containers.trans early.containers, Ordinals.le_trans early.ordinals late.ordinals⟩

theorem Advances.setBecomes (advances : first.Advances second)
    (there : first.containers.sets.cell? set = some held) : first.SetBecomes set held second where
  sets other := by
    rw [advances.containers]
    split
    next same => rw [same, there]
    next => rfl
  lists := by rw [advances.containers]
  ordinals := advances.ordinals

theorem SetBecomes.after_advances (advances : first.Advances second)
    (becomes : second.SetBecomes set held third) : first.SetBecomes set held third where
  sets := advances.containers ▸ becomes.sets
  lists := advances.containers ▸ becomes.lists
  ordinals := Ordinals.le_trans advances.ordinals becomes.ordinals

theorem SetBecomes.trans (early : first.SetBecomes set earlier second)
    (late : second.SetBecomes set held third) : first.SetBecomes set held third where
  sets other := by
    rw [late.sets, early.sets]
    split <;> rfl
  lists := late.lists.trans early.lists
  ordinals := Ordinals.le_trans early.ordinals late.ordinals

theorem SetBecomes.there (becomes : first.SetBecomes set held second) :
    second.containers.sets.cell? set = some held := by
  simp [becomes.sets]

end State

def OnlyAdvances {α : Type} (action : Action Outside α) : Prop :=
  ∀ before, Ends action before (fun _ => before.Advances) (fun _ => before.Advances)

namespace OnlyAdvances

variable {α β : Type} {action : Action Outside α} {next : α → Action Outside β}

theorem of_pure (result : α) : OnlyAdvances (pure result : Action Outside α) :=
  State.Advances.refl

theorem bind (first : OnlyAdvances action) (second : ∀ result, OnlyAdvances (next result)) :
    OnlyAdvances (action >>= next) := by
  intro before
  refine (first before).bind fun result middle early => ?_
  exact (second result middle).imp (fun _ _ late => early.trans late)
    (fun _ _ late => early.trans late)

theorem bind_containers {next : Containers → Action Outside β}
    (second : ∀ held, OnlyAdvances (next held)) : OnlyAdvances (containers >>= next) :=
  fun before => second before.containers before

end OnlyAdvances

namespace OrderedSet

variable {set : Handle OrderedSet} {held : OrderedSet} {before : State Outside}

theorem state_eq (there : before.containers.sets.cell? set = some held) :
    state set before = .ok held before := by
  rw [← Table.get_of_cell? there]
  rfl

theorem change_becomes (there : before.containers.sets.cell? set = some held)
    (step : OrderedSet → OrderedSet) :
    Succeeds (change set step) before fun _ after =>
      after.ordinals = before.ordinals ∧ before.SetBecomes set (step held) after := by
  refine ⟨(), _, rfl, rfl, fun other => ?_, rfl, Ordinals.le_refl before.ordinals⟩
  dsimp only
  rw [Table.cell?_modify]
  split
  next same => rw [same, there]; rfl
  next => rfl

theorem add_becomes (held : OrderedSet) (before : State Outside) :
    Succeeds (add held) before fun set after =>
      after.ordinals = before.ordinals ∧ before.containers.sets.cell? set = none ∧
        before.SetBecomes set held after :=
  ⟨_, _, rfl, rfl, Table.cell?_fresh before.containers.sets held,
    Table.cell?_add before.containers.sets held, rfl, Ordinals.le_refl before.ordinals⟩

end OrderedSet

end Collections
