import Collections.Proofs.ComparisonHistory
import Collections.Proofs.OrderedSet.Building
import Collections.Proofs.OrderedSet.Editing
import Collections.Proofs.Sequence.Soundness
import Collections.Proofs.Sequence.Steps

set_option autoImplicit false

namespace Collections

open Std

def FirstOfLevel (values : List Value) (value : Value) : Prop :=
  ∃ earlier later, values = earlier ++ value :: later ∧ ∀ other ∈ earlier, ¬ value.Level other

theorem mem_iff_firstOfLevel {ordinals : Ordinals} {items values : List Value}
    (ascends : Ranking.natural.Ascends ordinals items)
    (keeps : ∀ late, ordinals ≤ late → ∀ value, equalTo (Ranking.natural.order late) value items =
      equalTo (Ranking.natural.order late) value values) (value : Value) :
    value ∈ items ↔ FirstOfLevel values value := by
  -- Two identities that have not been compared look equal, unless one of them has an ordinal.
  let late := (ordinals.ordinal value).2
  have extended : ordinals ≤ late := Ordinals.le_ordinal ordinals value
  have equal_iff (other : Value) : Ranking.natural.order late value other = .eq ↔ value.Level other :=
    ⟨level_of_order_eq_of_mem (Ordinals.mem_ordinal ordinals value), order_eq_of_level late⟩
  have itself : Ranking.natural.order late value value = .eq := ReflCmp.compare_self
  calc value ∈ items
    _ ↔ equalTo (Ranking.natural.order late) value items = some value := by
        rw [(ascends.of_le extended).strict.equalTo_eq_some_iff, and_iff_left itself]
    _ ↔ equalTo (Ranking.natural.order late) value values = some value := by
        rw [keeps late extended]
    _ ↔ FirstOfLevel values value := by
        simp [equalTo, List.find?_eq_some_iff_append, equal_iff, itself, FirstOfLevel]

namespace Sequence

variable {Outside : Type} {callbacks : Callbacks Outside} {list : Handle Sequence}
  {held : Sequence} {before : State Outside}

theorem handOver_hands {set : Handle OrderedSet} {whole : OrderedSet}
    (there : before.containers.lists.cell? list = some held) (live : held.destroyed = false)
    (made : before.containers.sets.cell? set = some whole) :
    Succeeds (do
        let held ← state list
        OrderedSet.setDestructor set held.destructor
        change list ({ · with destructor := none })
        notify callbacks list
          (.converted held.reportedLength (← OrderedSet.state set).items.size)
        destroy callbacks list
        return set) before fun answer after => answer = set ∧
      after.containers.lists.cell? list = some held.release ∧
        after.containers.sets.cell? set = some { whole with destructor := held.destructor } ∧
          after.ordinals = before.ordinals := by
  apply Succeeds.bind_eq (state_eq there)
  refine (OrderedSet.change_becomes made _).bind fun _ given told => ?_
  obtain ⟨ordinals, gives⟩ := told
  have there : given.containers.lists.cell? list = some held := gives.lists ▸ there
  refine (change_changes callbacks there _).bind fun _ bare told => ?_
  obtain ⟨bares, there⟩ := told
  apply Succeeds.bind_eq rfl
  refine (notify_notifies there _).bind fun _ notified told => ?_
  obtain ⟨tells, same⟩ := told
  rw [← same] at there
  have destroys : Succeeds (destroy callbacks list) notified fun _ after =>
      notified.ChangesOnly callbacks list after ∧
        after.containers.lists.cell? list = some held.release := by
    apply Succeeds.bind_eq (requireLive_eq there live .destroy)
    apply Succeeds.bind_eq (state_eq there)
    refine (change_changes callbacks there release).bind fun _ released told => ?_
    obtain ⟨releases, there⟩ := told
    exact (notify_notifies there _).imp fun _ _ told => ⟨releases.trans told.1, told.2 ▸ there⟩
  refine destroys.bind fun _ after told => Succeeds.of_pure ?_
  obtain ⟨releases, there⟩ := told
  have changes := (bares.trans tells).trans releases
  exact ⟨rfl, there, changes.sets ▸ gives.there, changes.ordinals.trans ordinals⟩

theorem convertToOrderedSet_converts (ordinary : callbacks.Ordinary)
    (there : before.containers.lists.cell? list = some held) (steady : held.Steady)
    (live : held.destroyed = false) :
    Succeeds (convertToOrderedSet callbacks list) before fun set after =>
      before.containers.sets.cell? set = none ∧
        after.containers.lists.cell? list = some held.release ∧ ∃ items : Array Value,
          after.containers.sets.cell? set = some { items, destructor := held.destructor } ∧
            Ranking.natural.Ascends after.ordinals items.toList ∧
              ∀ value, value ∈ items ↔ FirstOfLevel held.elements value := by
  have makes : Succeeds (toOrderedSet callbacks list none) before fun set made =>
      before.containers.sets.cell? set = none ∧ ∃ items : Array Value,
        before.SetBecomes set { items } made ∧ Ranking.natural.Ascends made.ordinals items.toList ∧
          ∀ value, value ∈ items ↔ FirstOfLevel held.elements value := by
    apply Succeeds.bind_eq (requireLive_eq there live .toOrderedSet)
    refine (copyOut_all ordinary there steady).bind fun copied middle told => ?_
    obtain ⟨rfl, rfl⟩ := told
    have values : (held.elements.map some).map (·.getD .undefined) = held.elements := by
      simp [Function.comp_def]
    rw [values]
    refine (OrderedSet.ofValues_lasts callbacks.naturalOrder_ranks held.elements none middle).imp
      fun set made told => ?_
    obtain ⟨fresh, items, becomes, ascends, keeps⟩ := told
    refine ⟨fresh, items, becomes, ascends, fun value => ?_⟩
    rw [← Array.mem_toList_iff, mem_iff_firstOfLevel ascends keeps]
  refine makes.bind fun set made told => ?_
  obtain ⟨fresh, items, becomes, ascends, firsts⟩ := told
  have there : made.containers.lists.cell? list = some held := becomes.lists ▸ there
  refine (handOver_hands there live becomes.there).imp fun _ after told => ?_
  obtain ⟨rfl, released, owned, same⟩ := told
  exact ⟨fresh, released, items, owned, same ▸ ascends, firsts⟩

end Sequence

end Collections
