import Collections.Proofs.ComparisonHistory
import Collections.Proofs.OrderedSet.Bulk

set_option autoImplicit false

namespace Collections

open Std

variable {Outside : Type} {ranking : Ranking} {same : Value → Value → Prop}

def Ranking.Classes (ranking : Ranking) (same : Value → Value → Prop) : Prop :=
  ∀ ordinals left right, ranking.Settled ordinals left right →
    (ranking.order ordinals left right = .eq ↔ same left right)

theorem Ranking.natural_classes : Ranking.natural.Classes Value.Level :=
  fun ordinals _ _ settled => ⟨level_of_order_eq settled, order_eq_of_level ordinals⟩

theorem Ranking.constant_classes (order : Value → Value → Ordering) [TransCmp order] :
    (Ranking.constant order).Classes fun left right => order left right = .eq :=
  fun _ _ _ _ => Iff.rfl

theorem exists_level_iff {ordinals : Ordinals} {items values : List Value}
    (keeps : ∀ late, ordinals ≤ late → ∀ value, equalTo (Ranking.natural.order late) value items =
      equalTo (Ranking.natural.order late) value values) (value : Value) :
    (∃ item ∈ items, value.Level item) ↔ ∃ member ∈ values, value.Level member := by
  -- The order under which the value has an ordinal tells it from all identities but itself.
  let late := (ordinals.ordinal value).2
  have equal_iff (other : Value) : Ranking.natural.order late value other = .eq ↔ value.Level other :=
    ⟨level_of_order_eq_of_mem (Ordinals.mem_ordinal ordinals value), order_eq_of_level late⟩
  have found (others : List Value) : (equalTo (Ranking.natural.order late) value others).isSome ↔
      ∃ other ∈ others, value.Level other := by
    simp [equalTo, equal_iff]
  rw [← found, ← found, keeps late (Ordinals.le_ordinal ordinals value)]

namespace OrderedSet

variable {callbacks : Callbacks Outside} {set : Handle OrderedSet} {held : OrderedSet}
  {before : State Outside}

theorem contains_decides (searchable : Searchable callbacks ranking set held before)
    (classes : ranking.Classes same) (value : Value) :
    Succeeds (contains callbacks set value) before fun answer after => before.Advances after ∧
      (answer = true ↔ ∃ item ∈ held.items.toList, same value item) := by
  refine (contains_tells searchable value).imp fun answer after told => ?_
  obtain ⟨advances, compared, rfl⟩ := told
  refine ⟨advances, ?_⟩
  have equal_iff (item : Value) (member : item ∈ held.items.toList) :
      ranking.order after.ordinals value item = .eq ↔ same value item :=
    classes after.ordinals value item (ranking.symm (compared item member))
  simp only [equalTo, List.find?_isSome, beq_iff_eq]
  exact exists_congr fun item => and_congr_right fun member => equal_iff item member

end OrderedSet

end Collections
