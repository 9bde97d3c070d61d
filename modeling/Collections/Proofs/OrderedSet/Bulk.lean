import Collections.Proofs.OrderedSet.History
import Collections.Proofs.Sequence.Showing

set_option autoImplicit false

namespace Collections.OrderedSet

open Std

variable {Outside : Type}

def ofInserted (callbacks : Callbacks Outside) (values : List Value)
    (comparator : Option ComparatorId) (destructor : Option String) :
    Action Outside (Handle OrderedSet) := do
  let set ← empty comparator destructor
  values.forM fun value => do
    let _ ← insert callbacks set value
  return set

section Lasting

variable {callbacks : Callbacks Outside} {ranking : Ranking} {set : Handle OrderedSet}
  {held : OrderedSet} {before : State Outside}

-- What was compared for the insertion is settled, so that it is the insertion under any later order.
theorem Compared.inserted_of_le {early late : Ordinals} {items result : List Value} {value : Value}
    {answer : Bool} (compared : Compared ranking early items value) (extended : early ≤ late)
    (inserted : Inserted (ranking.order early) value items answer result) :
    Inserted (ranking.order late) value items answer result := by
  have agrees (item : Value) (member : item ∈ items) :
      ranking.order late value item = ranking.order early value item :=
    ranking.agrees extended (ranking.symm (compared item member))
  cases inserted with
  | kept member equal => exact .kept member ((agrees _ member).trans equal)
  | added whole absent =>
    exact .added whole fun item member equal => absent item member ((agrees item member).symm.trans equal)

theorem insertEach_lasts (values : List Value) (searchable : Searchable callbacks ranking set held before)
    (fits : held.items.size + values.length ≤ 1 <<< 31) :
    Succeeds (values.forM fun value => do let _ ← insert callbacks set value) before fun _ after =>
      ∃ items : Array Value, before.SetBecomes set { held with items } after ∧
        ranking.Ascends after.ordinals items.toList ∧ ∀ late, after.ordinals ≤ late → ∀ value,
          equalTo (ranking.order late) value items.toList =
            equalTo (ranking.order late) value (held.items.toList ++ values) := by
  induction values generalizing held before with
  | nil =>
    refine Succeeds.of_pure ⟨held.items, ?_, searchable.ascends, fun _ _ _ => by rw [List.append_nil]⟩
    exact (State.Advances.refl before).setBecomes searchable.there
  | cons value rest ih =>
    rw [List.length_cons] at fits
    have inserting : Succeeds (do let _ ← insert callbacks set value) before fun _ middle =>
        ∃ items : Array Value, before.SetBecomes set { held with items } middle ∧
          ranking.Ascends middle.ordinals items.toList ∧ items.size ≤ held.items.size + 1 ∧
            ∀ late, middle.ordinals ≤ late → ∀ asked,
              equalTo (ranking.order late) asked items.toList =
                equalTo (ranking.order late) asked (held.items.toList ++ [value]) := by
      refine (insert_inserts searchable value).bind fun answer middle told => Succeeds.of_pure ?_
      obtain ⟨items, becomes, ascends, compared, inserted⟩ := told
      refine ⟨items, becomes, ascends, by simpa using inserted.length_le, fun late extended asked => ?_⟩
      exact (compared.inserted_of_le extended inserted).equalTo_eq asked
    refine inserting.bind fun _ middle told => ?_
    obtain ⟨items, becomes, ascends, longer, first⟩ := told
    -- At most one item more, so the values that are left still fit.
    have searchable : Searchable callbacks ranking set { held with items } middle :=
      ⟨becomes.there, searchable.ranks, ascends, by dsimp only; omega⟩
    refine (ih searchable (by dsimp only; omega)).imp fun _ after told => ?_
    obtain ⟨last, later, ascends, keeps⟩ := told
    refine ⟨last, becomes.trans later, ascends, fun late extended asked => ?_⟩
    rw [keeps late extended, equalTo_append, first late (Ordinals.le_trans later.ordinals extended),
      ← equalTo_append, List.append_assoc]
    rfl

theorem ofInserted_lasts {comparator : Option ComparatorId} (ranks : callbacks.Ranks comparator ranking)
    {values : List Value} (fits : values.length ≤ 1 <<< 31) (destructor : Option String)
    (before : State Outside) :
    Succeeds (ofInserted callbacks values comparator destructor) before fun set after =>
      before.containers.sets.cell? set = none ∧ ∃ items : Array Value,
        before.SetBecomes set { items, comparator, destructor } after ∧
          ranking.Ascends after.ordinals items.toList ∧
            ∀ late, after.ordinals ≤ late → ∀ value, equalTo (ranking.order late) value items.toList =
              equalTo (ranking.order late) value values := by
  refine (add_becomes { comparator, destructor } before).bind fun set start told => ?_
  obtain ⟨_, fresh, added⟩ := told
  have searchable : Searchable callbacks ranking set { comparator, destructor } start :=
    ⟨added.there, ranks, List.Pairwise.nil, Nat.zero_le _⟩
  refine (insertEach_lasts values searchable (by simpa using fits)).bind fun _ after told => ?_
  obtain ⟨items, becomes, ascends, keeps⟩ := told
  exact Succeeds.of_pure ⟨fresh, items, added.trans becomes, ascends, keeps⟩

end Lasting

variable {callbacks : Callbacks Outside} {comparator : ComparatorId}
  {order : Value → Value → Ordering} [TransCmp order]

theorem ofInserted_keeps (compares : callbacks.Compares comparator order) {values : List Value}
    (fits : values.length ≤ 1 <<< 31) (destructor : Option String) (before : State Outside) :
    Succeeds (ofInserted callbacks values (some comparator) destructor) before fun set after =>
      ∃ items, Holding set comparator items after ∧ Strict order items ∧
        ∀ value, equalTo order value items = equalTo order value values := by
  refine (ofInserted_lasts compares.ranks fits destructor before).imp fun set after told => ?_
  obtain ⟨_, items, becomes, ascends, keeps⟩ := told
  exact ⟨items.toList, ⟨_, becomes.there, rfl, rfl⟩, ascends.strict,
    keeps after.ordinals (Ordinals.le_refl _)⟩

theorem ofValues_keeps (compares : callbacks.Compares comparator order) (values : List Value)
    (destructor : Option String) (before : State Outside) :
    Succeeds (ofValues callbacks values (some comparator) destructor) before fun set after =>
      ∃ items, Holding set comparator items after ∧ Strict order items ∧
        ∀ value, equalTo order value items = equalTo order value values := by
  refine (ofValues_ascends compares.ranks values destructor before).imp fun set after told => ?_
  obtain ⟨_, items, becomes, ascends, keeps⟩ := told
  exact ⟨items.toList, ⟨_, becomes.there, rfl, rfl⟩, ascends.strict, keeps⟩

theorem toOrderedSet_keeps (compares : callbacks.Compares comparator order)
    (copies : callbacks.CopyPlainStorages) {list : Handle Sequence} {elements : List Value}
    {before : State Outside} (showing : Sequence.Showing list elements before) :
    Succeeds (Sequence.toOrderedSet callbacks list (some comparator)) before fun set after =>
      ∃ items, Holding set comparator items after ∧ Strict order items ∧
        ∀ value, equalTo order value items = equalTo order value elements := by
  have ⟨held, there, shows⟩ := showing
  apply Succeeds.bind_eq (Sequence.requireLive_eq there shows.live .toOrderedSet)
  refine (Sequence.copyOut_copies copies showing).bind fun copied middle told => ?_
  obtain ⟨_, rfl⟩ := told
  have values : (elements.map some).map (·.getD .undefined) = elements := by
    simp [Function.comp_def]
  rw [values]
  exact ofValues_keeps compares elements none middle

/--
Building a set at once and inserting the values one by one give the same items in the same order, from
whatever states the two set out: of every class the value that comes first. So a set made of a list
holds of every class the element at the lowest index.
-/
theorem ofValues_eq_ofInserted (compares : callbacks.Compares comparator order)
    (copies : callbacks.CopyPlainStorages) :
    (∀ (values : List Value) (destructor : Option String) (before other : State Outside),
      values.length ≤ 1 <<< 31 → ∃ items, Strict order items ∧
        (∀ value, equalTo order value items = equalTo order value values) ∧
          Succeeds (ofValues callbacks values (some comparator) destructor) before
              (fun set after => Holding set comparator items after) ∧
            Succeeds (ofInserted callbacks values (some comparator) destructor) other
              (fun set after => Holding set comparator items after)) ∧
      ∀ (list : Handle Sequence) (elements : List Value) (before : State Outside),
        Sequence.Showing list elements before →
          Succeeds (Sequence.toOrderedSet callbacks list (some comparator)) before fun set after =>
            ∃ items, Holding set comparator items after ∧ Strict order items ∧
              ∀ value, equalTo order value items = equalTo order value elements := by
  refine ⟨fun values destructor before other fits => ?_,
    fun list elements before showing => toOrderedSet_keeps compares copies showing⟩
  obtain ⟨built, afterBuilding, built_eq, items, holding, strict, keeps⟩ :=
    ofValues_keeps compares values destructor before
  obtain ⟨grown, afterGrowing, grown_eq, others, growing, strictToo, keepsToo⟩ :=
    ofInserted_keeps compares fits destructor other
  obtain rfl : items = others := strict.eq_of_equalTo strictToo fun value =>
    (keeps value).trans (keepsToo value).symm
  exact ⟨items, strict, keeps, ⟨built, afterBuilding, built_eq, holding⟩,
    ⟨grown, afterGrowing, grown_eq, growing⟩⟩

theorem ofValues_eq_ofInserted_by_rank :
    Succeeds (ofInserted (Callbacks.plain Unit fun _ => compareOn Value.rank)
        [.integer 7, .bool true, .integer 5, .bool false] (some ⟨0⟩) none) ⟨{}, {}, ()⟩
        (fun set after => Holding set ⟨0⟩ [.bool true, .integer 7] after) ∧
      Succeeds (Sequence.toOrderedSet (Callbacks.plain Unit fun _ => compareOn Value.rank) ⟨0⟩
        (some ⟨0⟩)) ⟨{ lists := ⟨#[{ storage := .filled 2 .null, length := 2 }]⟩ }, {}, ()⟩
        (fun set after => Holding set ⟨0⟩ [.null] after) := by
  have ⟨bulk, list⟩ := ofValues_eq_ofInserted
    (Callbacks.plain_compares Unit (fun _ => compareOn Value.rank) ⟨0⟩)
    (Callbacks.plain_copyPlainStorages Unit _)
  constructor
  · obtain ⟨items, strict, keeps, _, grown⟩ := bulk
      [.integer 7, .bool true, .integer 5, .bool false] none ⟨{}, {}, ()⟩ ⟨{}, {}, ()⟩ (by decide)
    have same : items = [.bool true, .integer 7] := by
      refine strict.eq_of_equalTo (by unfold Strict; decide) fun value => ?_
      rw [keeps]
      simp only [equalTo_cons, equalTo_nil]
      cases value <;> rfl
    exact same ▸ grown
  · have shows : Sequence.Shows { storage := .filled 2 .null, length := 2 } [.null, .null] :=
      ⟨rfl, Storage.Lays.filled 2 .null, rfl, fun negative => Bool.noConfusion negative⟩
    refine (list ⟨0⟩ [.null, .null] _ ⟨_, rfl, shows⟩).imp fun set after told => ?_
    obtain ⟨items, holding, strict, keeps⟩ := told
    have same : items = [.null] := by
      refine strict.eq_of_equalTo (List.pairwise_singleton _ _) fun value => ?_
      rw [keeps, equalTo_cons, equalTo_cons]
      split <;> simp_all
    exact same ▸ holding

end Collections.OrderedSet
