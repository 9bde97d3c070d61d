import Collections.Proofs.OrderedSet.Classes
import Collections.Proofs.StableSort.Judging

set_option autoImplicit false

namespace Collections

open Std StableSort

variable {Outside : Type} {callbacks : Callbacks Outside} {comparator : Option ComparatorId}
  {ranking : Ranking}

theorem sort_ranks (ranks : callbacks.Ranks comparator ranking) (values : List Value)
    (before : State Outside) :
    Succeeds (StableSort.sort (callbacks.below comparator) values) before fun sorted after =>
      before.Advances after ∧ ∀ late, after.ordinals ≤ late →
        Ascending (ranking.order late) sorted ∧ KeepsClasses (ranking.order late) values sorted := by
  have answers (left right : Value) (early : State Outside) :
      Succeeds (callbacks.below comparator left right) early fun _ => early.Advances := by
    refine (ranks left right early).bind fun reply after ⟨advances, _, _, number⟩ => ?_
    exact ⟨reply.isBelow, after, by rw [Reply.sortsBelow, number]; rfl, advances⟩
  have compares (left right : Value) : Keeps before.Advances (callbacks.below comparator left right) :=
    fun early advances => (answers left right early).ends.imp
      (fun _ _ more => advances.trans more) fun _ _ failed => failed
  have advances := Keeps.sort compares values before (.refl before)
  have succeeds := sort_succeeds
    (fun left right early => (answers left right early).imp fun _ _ _ => trivial) values before
  refine ((succeeds.and advances).and (sort_settles ranks.judges values before)).imp ?_
  exact fun _ _ told => ⟨told.1.2, told.2.2⟩

namespace OrderedSet

theorem Ascends.push {ordinals : Ordinals} {kept : Array Value} {last value : Value}
    (ascends : ranking.Ascends ordinals kept.toList) (ends : kept.back? = some last)
    (below : ranking.Below ordinals last value) :
    ranking.Ascends ordinals (kept.push value).toList := by
  rw [Array.toList_push]
  refine List.pairwise_append.2 ⟨ascends, by simp, fun item member other same => ?_⟩
  rw [List.mem_singleton.1 same]
  have ends : kept.toList.getLast? = some last := by simpa using ends
  obtain ⟨front, whole⟩ := List.getLast?_eq_some_iff.1 ends
  rw [whole] at ascends member
  rcases List.mem_append.1 member with earlier | there
  · exact ((List.pairwise_append.1 ascends).2.2 item earlier last (by simp)).trans below
  · exact List.mem_singleton.1 there ▸ below

theorem keepDistinct_ascends (ranks : callbacks.Ranks comparator ranking) (values : List Value)
    {kept : Array Value} {before : State Outside}
    (ascends : ranking.Ascends before.ordinals kept.toList)
    (sorted : ∀ late, before.ordinals ≤ late →
      Ascending (ranking.order late) (kept.toList ++ values)) :
    Succeeds (keepDistinct callbacks comparator kept values) before fun items after =>
      before.Advances after ∧ ranking.Ascends after.ordinals items.toList ∧
        ∀ late, after.ordinals ≤ late → ∀ value, equalTo (ranking.order late) value items.toList =
          equalTo (ranking.order late) value (kept.toList ++ values) := by
  -- The kept items ascend for good, and with the values still to come they are sorted under any
  -- later table: only neighbours are compared, and only the last item is kept for comparison.
  induction values generalizing kept before with
  | nil =>
    exact Succeeds.of_pure ⟨.refl before, ascends, fun late _ value => by rw [List.append_nil]⟩
  | cons value rest ih =>
    have pushed : (kept.push value).toList ++ rest = kept.toList ++ value :: rest := by simp
    rw [keepDistinct.eq_def]
    dsimp only
    split
    next missing =>
      obtain rfl : kept = #[] := by simpa using missing
      refine (ih (by simp [Ranking.Ascends]) (pushed ▸ sorted)).imp fun items after told => ?_
      exact ⟨told.1, told.2.1, pushed ▸ told.2.2⟩
    next last ends =>
      have member : last ∈ kept.toList := by simpa using Array.mem_of_back? ends
      refine (ranks last value before).bind fun reply middle told => ?_
      obtain ⟨advances, settled, order_eq, _⟩ := told
      have ascends := ascends.of_le advances.ordinals
      have sorted (late : Ordinals) (extended : middle.ordinals ≤ late) :=
        sorted late (Ordinals.le_trans advances.ordinals extended)
      have next := sorted middle.ordinals (Ordinals.le_refl middle.ordinals)
      split
      next equal =>
        have equal : ranking.order middle.ordinals last value = .eq := by
          simpa [Reply.isEqual, order_eq] using equal
        have fewer : (kept.toList ++ rest).Sublist (kept.toList ++ value :: rest) := by simp
        refine (ih ascends fun late extended =>
          List.Pairwise.sublist fewer (sorted late extended)).imp fun items after told => ?_
        refine ⟨advances.trans told.1, told.2.1, fun late extended asked => ?_⟩
        have equal : ranking.order late last value = .eq :=
          ranking.agrees (Ordinals.le_trans told.1.ordinals extended) settled ▸ equal
        -- The value is dropped, and its class still shows what was kept of it.
        rw [told.2.2 late extended, equalTo_append_of_equal member equal]
      next unequal =>
        have ordered : (ranking.order middle.ordinals last value).isLE :=
          (List.pairwise_append.1 next).2.2 last member value List.mem_cons_self
        have below : ranking.Below middle.ordinals last value := by
          refine ⟨settled, ?_⟩
          simp only [Reply.isEqual, order_eq, beq_iff_eq] at unequal
          cases told : ranking.order middle.ordinals last value <;> simp_all
        refine (ih (Ascends.push ascends ends below) (pushed ▸ sorted)).imp
          fun items after told => ?_
        exact ⟨advances.trans told.1, told.2.1, pushed ▸ told.2.2⟩

theorem ofValues_lasts (ranks : callbacks.Ranks comparator ranking) (values : List Value)
    (destructor : Option String) (before : State Outside) :
    Succeeds (ofValues callbacks values comparator destructor) before fun set after =>
      before.containers.sets.cell? set = none ∧ ∃ items : Array Value,
        before.SetBecomes set { items, comparator, destructor } after ∧
          ranking.Ascends after.ordinals items.toList ∧
            ∀ late, after.ordinals ≤ late → ∀ value, equalTo (ranking.order late) value items.toList =
              equalTo (ranking.order late) value values := by
  refine (sort_ranks ranks values before).bind fun sorted middle told => ?_
  obtain ⟨sorting, sorts⟩ := told
  have nothing : ranking.Ascends middle.ordinals (#[] : Array Value).toList := List.Pairwise.nil
  refine (keepDistinct_ascends ranks sorted nothing fun late extended =>
    (sorts late extended).1).bind fun items walked told => ?_
  obtain ⟨walking, ascends, keeps⟩ := told
  refine (add_becomes { items, comparator, destructor } walked).imp fun set after told => ?_
  obtain ⟨same, fresh, becomes⟩ := told
  have advances := sorting.trans walking
  rw [advances.containers] at fresh
  refine ⟨fresh, items, becomes.after_advances advances, same ▸ ascends, fun late extended value => ?_⟩
  rw [same] at extended
  rw [keeps late extended value, List.nil_append, equalTo_eq_head?_classOf, equalTo_eq_head?_classOf,
    (sorts late (Ordinals.le_trans walking.ordinals extended)).2 value]

theorem ofValues_ascends (ranks : callbacks.Ranks comparator ranking) (values : List Value)
    (destructor : Option String) (before : State Outside) :
    Succeeds (ofValues callbacks values comparator destructor) before fun set after =>
      before.containers.sets.cell? set = none ∧ ∃ items : Array Value,
        before.SetBecomes set { items, comparator, destructor } after ∧
          ranking.Ascends after.ordinals items.toList ∧
            ∀ value, equalTo (ranking.order after.ordinals) value items.toList =
              equalTo (ranking.order after.ordinals) value values := by
  refine (ofValues_lasts ranks values destructor before).imp fun set after told => ?_
  obtain ⟨fresh, items, becomes, ascends, keeps⟩ := told
  exact ⟨fresh, items, becomes, ascends, keeps after.ordinals (Ordinals.le_refl after.ordinals)⟩

end OrderedSet

end Collections
