import Collections.Proofs.OrderedSet.Classes
import Collections.Proofs.OrderedSet.Search
import Collections.Proofs.StableSort.Sorting

set_option autoImplicit false

namespace Collections

open Std

inductive Inserted {α : Type} (order : α → α → Ordering) (value : α) (items : List α) :
    Bool → List α → Prop where
  | kept {item : α} (member : item ∈ items) (equal : order value item = .eq) :
      Inserted order value items false items
  | added {left right : List α} (whole : items = left ++ right)
      (absent : ∀ item ∈ items, order value item ≠ .eq) :
      Inserted order value items true (left ++ value :: right)

inductive Erased {α : Type} (order : α → α → Ordering) (value : α) (items : List α) :
    Bool → List α → Prop where
  | absent (absent : ∀ item ∈ items, order value item ≠ .eq) : Erased order value items false items
  | removed {left right : List α} {item : α} (whole : items = left ++ item :: right)
      (equal : order value item = .eq) : Erased order value items true (left ++ right)

section Results

variable {α : Type} {order : α → α → Ordering} {value : α} {items result : List α} {answer : Bool}

theorem Inserted.answer_eq (inserted : Inserted order value items answer result) :
    answer = (equalTo order value items).isNone := by
  cases inserted with
  | kept member equal =>
    cases held : equalTo order value items with
    | none => exact absurd equal (equalTo_eq_none.1 held _ member)
    | some item => rfl
  | added whole absent => rw [equalTo_eq_none.2 absent]; rfl

theorem Inserted.length_le (inserted : Inserted order value items answer result) :
    result.length ≤ items.length + 1 := by
  cases inserted with
  | kept => exact Nat.le_succ items.length
  | added whole =>
    subst whole
    simp only [List.length_append, List.length_cons]
    omega

theorem Erased.answer_eq (erased : Erased order value items answer result) :
    answer = (equalTo order value items).isSome := by
  cases erased with
  | absent absent => rw [equalTo_eq_none.2 absent]; rfl
  | @removed left right item whole equal =>
    cases held : equalTo order value items with
    | none => exact absurd equal (equalTo_eq_none.1 held item (by simp [whole]))
    | some item => rfl

variable [TransCmp order]

theorem Inserted.equalTo_eq (inserted : Inserted order value items answer result) (asked : α) :
    equalTo order asked result = equalTo order asked (items ++ [value]) := by
  cases inserted with
  | kept member equal =>
    rw [equalTo_append_of_equal member (OrientedCmp.eq_symm equal), List.append_nil]
  | @added left right whole absent =>
    subst whole
    rw [equalTo_append, equalTo_append, equalTo_append, equalTo_cons, equalTo_cons, equalTo_nil]
    split
    next equal =>
      have unequal (item : α) (member : item ∈ left ++ right) : order asked item ≠ .eq :=
        fun same => absent item member (TransCmp.eq_trans (OrientedCmp.eq_symm equal) same)
      rw [equalTo_eq_none.2 fun item member => unequal item (List.mem_append_left right member),
        equalTo_eq_none.2 fun item member => unequal item (List.mem_append_right left member)]
      rfl
    next => simp

theorem Erased.result_eq (strict : Strict order items)
    (erased : Erased order value items answer result) :
    result = items.filter fun item => order value item != .eq := by
  cases erased with
  | absent absent =>
    refine (List.filter_eq_self.2 fun item member => ?_).symm
    simpa using absent item member
  | @removed left right item whole equal =>
    subst whole
    have others (other : α) (member : other ∈ left ++ right) : order value other ≠ .eq := by
      intro same
      have equal : order item other = .eq := TransCmp.eq_trans (OrientedCmp.eq_symm equal) same
      have ⟨_, rightStrict, apart⟩ := List.pairwise_append.1 strict
      rcases List.mem_append.1 member with inLeft | inRight
      · have below := apart other inLeft item List.mem_cons_self
        simp [OrientedCmp.eq_symm equal] at below
      · have above := (List.pairwise_cons.1 rightStrict).1 other inRight
        simp [equal] at above
    have dropped : ([item].filter fun other => order value other != .eq) = [] := by simp [equal]
    have kept : (left ++ right).filter (fun other => order value other != .eq) = left ++ right :=
      List.filter_eq_self.2 fun other member => by simpa using others other member
    rw [← List.singleton_append, List.filter_append, List.filter_append, dropped, List.nil_append,
      ← List.filter_append, kept]

theorem Erased.equalTo_eq (strict : Strict order items)
    (erased : Erased order value items answer result) (asked : α) :
    equalTo order asked result =
      if order asked value = .eq then none else equalTo order asked items := by
  rw [erased.result_eq strict]
  split
  next same =>
    refine equalTo_eq_none.2 fun item member equal => ?_
    have unequal : order value item ≠ .eq := by simpa using (List.mem_filter.1 member).2
    exact unequal (TransCmp.eq_trans (OrientedCmp.eq_symm same) equal)
  next differ =>
    unfold equalTo
    rw [List.find?_filter]
    congr 1
    funext item
    by_cases equal : order asked item = .eq
    · have unequal : order value item ≠ .eq := fun same =>
        differ (TransCmp.eq_trans equal (OrientedCmp.eq_symm same))
      simp [equal, unequal]
    · simp [equal]

end Results

variable {Outside : Type} {ranking : Ranking} {ordinals : Ordinals} {value : Value}

theorem Ranking.Ascends.strict {items : List Value} (ascends : ranking.Ascends ordinals items) :
    Strict (ranking.order ordinals) items :=
  List.Pairwise.imp And.right ascends

namespace OrderedSet

section Located

variable {items : List Value} {location : Location}
  (located : Located ranking ordinals items value location)

include located

theorem Located.front_unequal {item : Value} (member : item ∈ items.take location.position) :
    ranking.order ordinals value item ≠ .eq := by
  have below := (located.splits.front item member).2
  intro equal
  simp [OrientedCmp.eq_symm equal] at below

theorem Located.settled : ∀ item ∈ items, ranking.Settled ordinals item value := by
  intro item member
  rw [← List.take_append_drop location.position items, List.mem_append] at member
  rcases member with front | back
  · exact (located.splits.front item front).1
  · exact (located.splits.back item back).1

theorem Located.item_of_found (found : location.found = true) :
    ∃ item, items = items.take location.position ++ item :: items.drop (location.position + 1) ∧
      items[location.position]? = some item ∧ ranking.order ordinals value item = .eq := by
  obtain ⟨item, there, equal⟩ := located.found.1 found
  obtain ⟨inside, same⟩ := List.getElem?_eq_some_iff.1 there
  refine ⟨item, ?_, there, OrientedCmp.eq_symm equal⟩
  rw [← same]
  exact eq_take_append_drop inside

theorem Located.unequal_of_not_found (ascends : ranking.Ascends ordinals items)
    (notFound : location.found = false) :
    ∀ item ∈ items, ranking.order ordinals value item ≠ .eq := by
  intro item member
  rw [← List.take_append_drop location.position items, List.mem_append] at member
  rcases member with front | back
  · exact located.front_unequal front
  · intro equal
    have notBelow := located.splits.back item back
    obtain ⟨first, rest, behind⟩ := List.exists_cons_of_ne_nil (List.ne_nil_of_mem back)
    have there : items[location.position]? = some first := by
      rw [← List.head?_drop, behind]
      rfl
    rw [behind] at back
    rcases List.mem_cons.1 back with rfl | later
    · have found := located.found.2 ⟨item, there, OrientedCmp.eq_symm equal⟩
      simp [notFound] at found
    · have ascends : ranking.Ascends ordinals (first :: rest) := behind ▸ List.Pairwise.drop ascends
      have notFirst : ranking.NotBelow ordinals first value :=
        located.splits.back first (behind ▸ List.mem_cons_self)
      have above := (notFirst.of_below (List.rel_of_pairwise_cons ascends later)).2
      simp [OrientedCmp.eq_symm equal] at above

theorem Located.insert_ascends (ascends : ranking.Ascends ordinals items)
    (notFound : location.found = false) :
    ranking.Ascends ordinals
      (items.take location.position ++ value :: items.drop location.position) := by
  have unequal := located.unequal_of_not_found ascends notFound
  have above {item : Value} (member : item ∈ items.drop location.position) :
      ranking.Below ordinals value item := by
    obtain ⟨settled, notBelow⟩ := located.splits.back item member
    have unequal := unequal item (List.mem_of_mem_drop member)
    refine ⟨ranking.symm settled, ?_⟩
    have swapped : ranking.order ordinals value item =
        (ranking.order ordinals item value).swap := OrientedCmp.eq_swap
    rw [swapped] at unequal ⊢
    cases told : ranking.order ordinals item value <;> simp_all
  refine List.pairwise_append.2 ⟨List.Pairwise.take ascends, List.pairwise_cons.2
    ⟨fun item member => above member, List.Pairwise.drop ascends⟩, fun item front other back => ?_⟩
  have below := located.splits.front item front
  rcases List.mem_cons.1 back with rfl | later
  · exact below
  · exact below.trans (above later)

end Located

variable {callbacks : Callbacks Outside} {set : Handle OrderedSet} {held : OrderedSet}
  {before : State Outside}

theorem insertAt_items (held : OrderedSet) {position : Nat} (value : Value)
    (inside : position ≤ held.items.toList.length) :
    (held.insertAt position value).items.toList =
      held.items.toList.take position ++ value :: held.items.toList.drop position := by
  have inside : position ≤ held.items.size := inside
  simp only [insertAt, Nat.min_eq_left inside, Array.toList_insertIdx]
  exact StableSort.insertIdx_eq_append inside value

theorem eraseAt_items (held : OrderedSet) {position : Nat}
    (inside : position < held.items.toList.length) :
    (held.eraseAt position).items.toList =
      held.items.toList.take position ++ held.items.toList.drop (position + 1) := by
  have inside : position < held.items.size := inside
  simp [eraseAt, Array.eraseIdxIfInBounds, inside, List.eraseIdx_eq_take_drop_succ]

def Compared (ranking : Ranking) (ordinals : Ordinals) (items : List Value) (value : Value) : Prop :=
  ∀ item ∈ items, ranking.Settled ordinals item value

theorem insert_inserts (searchable : Searchable callbacks ranking set held before) (value : Value) :
    Succeeds (insert callbacks set value) before fun inserted after => ∃ items : Array Value,
      before.SetBecomes set { held with items } after ∧
        ranking.Ascends after.ordinals items.toList ∧
          Compared ranking after.ordinals held.items.toList value ∧
            Inserted (ranking.order after.ordinals) value held.items.toList inserted
              items.toList := by
  refine (locate_located searchable value).bind fun location middle told => ?_
  obtain ⟨advances, located⟩ := told
  have searchable := searchable.advances advances
  split
  next found =>
    obtain ⟨item, whole, there, equal⟩ := located.item_of_found found
    refine Succeeds.of_pure ⟨held.items, ?_, searchable.ascends, located.settled, ?_⟩
    · exact (State.Advances.refl middle).setBecomes searchable.there |>.after_advances advances
    · exact .kept (List.mem_of_getElem? there) equal
  next notFound =>
    have notFound : location.found = false := by simpa using notFound
    refine (change_becomes searchable.there _).bind fun _ after told => Succeeds.of_pure ?_
    obtain ⟨same, becomes⟩ := told
    refine ⟨(held.insertAt location.position value).items, becomes.after_advances advances, ?_,
      same ▸ located.settled, ?_⟩
    · rw [insertAt_items held value located.inside, same]
      exact located.insert_ascends searchable.ascends notFound
    · rw [insertAt_items held value located.inside, same]
      exact .added (List.take_append_drop _ _).symm
        (located.unequal_of_not_found searchable.ascends notFound)

theorem erase_erases (searchable : Searchable callbacks ranking set held before) (value : Value) :
    Succeeds (erase callbacks set value) before fun erased after => ∃ items : Array Value,
      before.SetBecomes set { held with items } after ∧
        ranking.Ascends after.ordinals items.toList ∧
          Compared ranking after.ordinals held.items.toList value ∧
            Erased (ranking.order after.ordinals) value held.items.toList erased items.toList := by
  refine (locate_located searchable value).bind fun location middle told => ?_
  obtain ⟨advances, located⟩ := told
  have searchable := searchable.advances advances
  split
  next found =>
    obtain ⟨item, whole, there, equal⟩ := located.item_of_found found
    have inside := (List.getElem?_eq_some_iff.1 there).1
    refine (change_becomes searchable.there _).bind fun _ after told => Succeeds.of_pure ?_
    obtain ⟨same, becomes⟩ := told
    refine ⟨(held.eraseAt location.position).items, becomes.after_advances advances, ?_,
      same ▸ located.settled, ?_⟩
    · rw [eraseAt_items held inside, same, ← List.eraseIdx_eq_take_drop_succ]
      exact List.Pairwise.sublist (List.eraseIdx_sublist _ _) searchable.ascends
    · rw [eraseAt_items held inside, same]
      exact .removed whole equal
  next notFound =>
    have notFound : location.found = false := by simpa using notFound
    refine Succeeds.of_pure ⟨held.items, ?_, searchable.ascends, located.settled, ?_⟩
    · exact (State.Advances.refl middle).setBecomes searchable.there |>.after_advances advances
    · exact .absent (located.unequal_of_not_found searchable.ascends notFound)

theorem Located.equalTo_eq {items : List Value} {location : Location}
    (located : Located ranking ordinals items value location)
    (ascends : ranking.Ascends ordinals items) :
    equalTo (ranking.order ordinals) value items =
      if location.found then items[location.position]? else none := by
  cases found : location.found with
  | true =>
    obtain ⟨item, whole, there, equal⟩ := located.item_of_found found
    rw [if_pos rfl, there]
    exact ascends.strict.equalTo_eq_some_iff.2 ⟨List.mem_of_getElem? there, equal⟩
  | false => exact equalTo_eq_none.2 (located.unequal_of_not_found ascends found)

theorem contains_tells (searchable : Searchable callbacks ranking set held before) (value : Value) :
    Succeeds (contains callbacks set value) before fun answer after => before.Advances after ∧
      Compared ranking after.ordinals held.items.toList value ∧
        answer = (equalTo (ranking.order after.ordinals) value held.items.toList).isSome := by
  refine (locate_located searchable value).bind fun location middle told => Succeeds.of_pure ?_
  obtain ⟨advances, located⟩ := told
  refine ⟨advances, located.settled, ?_⟩
  rw [located.equalTo_eq (searchable.advances advances).ascends]
  cases found : location.found with
  | true =>
    obtain ⟨item, there, _⟩ := located.found.1 found
    simp [there]
  | false => rfl

theorem find_finds (searchable : Searchable callbacks ranking set held before) (value : Value) :
    Succeeds (find callbacks set value) before fun answer after => before.Advances after ∧
      Compared ranking after.ordinals held.items.toList value ∧
        answer =
          (equalTo (ranking.order after.ordinals) value held.items.toList).getD .undefined := by
  refine (locate_located searchable value).bind fun location middle told => ?_
  obtain ⟨advances, located⟩ := told
  have searchable := searchable.advances advances
  split
  next found =>
    refine Succeeds.bind_eq (state_eq searchable.there) (Succeeds.of_pure ⟨advances, located.settled, ?_⟩)
    obtain ⟨item, whole, there, equal⟩ := located.item_of_found found
    have inside := (List.getElem?_eq_some_iff.1 there).1
    rw [located.equalTo_eq searchable.ascends, if_pos found, item_eq_getElem held inside,
      List.getElem?_eq_getElem inside]
    rfl
  next notFound =>
    refine Succeeds.of_pure ⟨advances, located.settled, ?_⟩
    rw [located.equalTo_eq searchable.ascends, if_neg notFound]
    rfl

end OrderedSet

end Collections
