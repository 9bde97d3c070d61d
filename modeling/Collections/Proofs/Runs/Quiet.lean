import Collections.Proofs.Runs.Soundness
import Collections.Proofs.Sequence.Steps

set_option autoImplicit false

namespace Collections

variable {Outside α β : Type}

structure State.Intact (early late : State Outside) : Prop where
  lists : ∀ list held, early.containers.lists.cell? list = some held →
    late.containers.lists.cell? list = some held
  sets : ∀ set held, early.containers.sets.cell? set = some held →
    late.containers.sets.cell? set = some held

namespace State.Intact

variable {first second third : State Outside}

theorem of_containers_eq (same : second.containers = first.containers) : first.Intact second :=
  ⟨fun _ _ there => same ▸ there, fun _ _ there => same ▸ there⟩

theorem trans (early : first.Intact second) (late : second.Intact third) : first.Intact third :=
  ⟨fun list held there => late.lists list held (early.lists list held there),
    fun set held there => late.sets set held (early.sets set held there)⟩

end State.Intact

def NeverFails (action : Action Outside α) : Prop := ∀ before, Succeeds action before fun _ _ => True

namespace NeverFails

variable {action : Action Outside α} {next : α → Action Outside β}

theorem of_pure (result : α) : NeverFails (pure result : Action Outside α) :=
  fun _ => Succeeds.of_pure trivial

theorem bind (first : NeverFails action) (second : ∀ result, NeverFails (next result)) :
    NeverFails (action >>= next) :=
  fun before => (first before).bind fun result middle _ => second result middle

theorem change (list : Handle Sequence) (step : Sequence → Sequence) :
    NeverFails (Sequence.change list step : Action Outside Unit) := fun _ => ⟨_, _, rfl, trivial⟩

theorem changeSet (set : Handle OrderedSet) (step : OrderedSet → OrderedSet) :
    NeverFails (OrderedSet.change set step : Action Outside Unit) := fun _ => ⟨_, _, rfl, trivial⟩

theorem takeOut (list : Handle Sequence) (slot : Nat) :
    NeverFails (Sequence.takeOut list slot : Action Outside Value) := fun _ => ⟨_, _, rfl, trivial⟩

theorem notify (callbacks : Callbacks Outside) (list : Handle Sequence) (notice : Notice) :
    NeverFails (Sequence.notify callbacks list notice) := by
  intro before
  apply Succeeds.bind_eq rfl
  split <;> exact ⟨_, _, rfl, trivial⟩

end NeverFails

def Restores (action : Action Outside α) : Prop :=
  ∀ before, Ends action before (fun _ _ => True) fun _ => before.Intact

namespace Restores

variable {action : Action Outside α} {next : α → Action Outside β}

theorem of_neverFails (never : NeverFails action) : Restores action :=
  fun before => (never before).ends

theorem after (first : OnlyAdvances action) (second : ∀ result, Restores (next result)) :
    Restores (action >>= next) := by
  intro before
  have staged : Ends action before (fun _ after => after.containers = before.containers)
      fun _ => before.Intact :=
    (first before).imp (fun _ _ same => same.containers)
      fun _ _ same => .of_containers_eq same.containers
  refine staged.bind fun result middle same => (second result middle).imp (fun _ _ _ => trivial) ?_
  exact fun _ _ intact => (State.Intact.of_containers_eq same).trans intact

theorem ite {holds : Prop} [Decidable holds] {other : Action Outside α} (first : Restores action)
    (second : Restores other) : Restores (if holds then action else other) := by
  split
  · exact first
  · exact second

end Restores

theorem OnlyAdvances.of_keeps {action : Action Outside α}
    (keeps : ∀ start : State Outside, Keeps start.Advances action) : OnlyAdvances action :=
  fun before => keeps before before (.refl before)

theorem OnlyAdvances.keeps {action : Action Outside α} (advances : OnlyAdvances action)
    (start : State Outside) : Keeps start.Advances action :=
  fun before early => (advances before).imp (fun _ _ late => early.trans late)
    fun _ _ late => early.trans late

structure Surroundings.Quiet (surroundings : Surroundings Outside) : Prop where
  contract : ∀ start : State Outside, Contract surroundings start.Advances
  destructs : ∀ destructor value, OnlyAdvances (surroundings.destruct destructor value)
  draws : ∀ source lower upper, OnlyAdvances (surroundings.draw source lower upper)

end Collections
