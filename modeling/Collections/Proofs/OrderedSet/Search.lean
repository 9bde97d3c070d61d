import Collections.Proofs.Ranking

set_option autoImplicit false

namespace Collections

open Std

variable {Outside : Type} {ranking : Ranking}

theorem eq_take_append_drop {α : Type} {items : List α} {position : Nat}
    (inside : position < items.length) :
    items = items.take position ++ items[position] :: items.drop (position + 1) := by
  rw [← List.drop_eq_getElem_cons inside, List.take_append_drop]

namespace Ranking

structure Splits (ranking : Ranking) (ordinals : Ordinals) (items : List Value) (value : Value)
    (low high : Nat) : Prop where
  front : ∀ item ∈ items.take low, ranking.Below ordinals item value
  back : ∀ item ∈ items.drop high, ranking.NotBelow ordinals item value

namespace Splits

variable {early late ordinals : Ordinals} {items : List Value} {value : Value}
  {low high position : Nat}

theorem of_le (extended : early ≤ late) (splits : ranking.Splits early items value low high) :
    ranking.Splits late items value low high :=
  ⟨fun item member => (splits.front item member).of_le extended,
    fun item member => (splits.back item member).of_le extended⟩

theorem whole (ranking : Ranking) (ordinals : Ordinals) (items : List Value) (value : Value) :
    ranking.Splits ordinals items value 0 items.length := by
  constructor <;> simp

theorem raise (splits : ranking.Splits ordinals items value low high)
    (ascends : ranking.Ascends ordinals items) (inside : position < items.length)
    (below : ranking.Below ordinals items[position] value) :
    ranking.Splits ordinals items value (position + 1) high := by
  refine ⟨fun item member => ?_, splits.back⟩
  rw [List.take_succ_eq_append_getElem inside, List.mem_append, List.mem_singleton] at member
  rcases member with earlier | rfl
  · have ascends : ranking.Ascends ordinals
        (items.take position ++ items[position] :: items.drop (position + 1)) :=
      eq_take_append_drop inside ▸ ascends
    exact ((List.pairwise_append.1 ascends).2.2 item earlier _ List.mem_cons_self).trans below
  · exact below

theorem lower (splits : ranking.Splits ordinals items value low high)
    (ascends : ranking.Ascends ordinals items) (inside : position < items.length)
    (notBelow : ranking.NotBelow ordinals items[position] value) :
    ranking.Splits ordinals items value low position := by
  refine ⟨splits.front, fun item member => ?_⟩
  rw [List.drop_eq_getElem_cons inside, List.mem_cons] at member
  rcases member with rfl | later
  · exact notBelow
  · have ascends : ranking.Ascends ordinals (items[position] :: items.drop (position + 1)) := by
      rw [← List.drop_eq_getElem_cons inside]
      exact List.Pairwise.drop ascends
    exact (notBelow.of_below (List.rel_of_pairwise_cons ascends later)).1

end Splits

end Ranking

namespace OrderedSet

theorem item_eq_getElem (held : OrderedSet) {position : Nat}
    (inside : position < held.items.toList.length) :
    held.item position = held.items.toList[position] := by
  have inside : position < held.items.size := inside
  simp [item, Array.getD, inside]

-- The set that a handle reaches, and what may be relied on to search it.
structure Searchable (callbacks : Callbacks Outside) (ranking : Ranking) (set : Handle OrderedSet)
    (held : OrderedSet) (state : State Outside) : Prop where
  there : state.containers.sets.cell? set = some held
  ranks : callbacks.Ranks held.comparator ranking
  ascends : ranking.Ascends state.ordinals held.items.toList
  fits : held.items.size ≤ 1 <<< 31

variable {callbacks : Callbacks Outside} {set : Handle OrderedSet} {held : OrderedSet}
  {before after : State Outside}

theorem Searchable.advances (searchable : Searchable callbacks ranking set held before)
    (advances : before.Advances after) : Searchable callbacks ranking set held after where
  there := advances.containers ▸ searchable.there
  ranks := searchable.ranks
  ascends := searchable.ascends.of_le advances.ordinals
  fits := searchable.fits

theorem compareItem_ranks (searchable : Searchable callbacks ranking set held before)
    {position : Nat} (inside : position < held.items.toList.length) (value : Value) :
    Succeeds (compareItem callbacks set position value) before fun reply after =>
      before.Advances after ∧
        ranking.Settled after.ordinals held.items.toList[position] value ∧
          reply.order = ranking.order after.ordinals held.items.toList[position] value := by
  apply Succeeds.bind_eq (state_eq searchable.there)
  rw [item_eq_getElem held inside]
  refine (searchable.ranks held.items.toList[position] value before).imp fun reply after told => ?_
  exact ⟨told.1, told.2.1, told.2.2.1⟩

theorem middle_inside {window : Window} {size : Nat} (wide : window.low < window.high)
    (inside : window.high ≤ size) (fits : size ≤ 1 <<< 31) : window.Narrows := by
  unfold Window.Narrows Window.middle
  rw [Nat.mod_eq_of_lt (by omega)]
  omega

theorem search_splits (searchable : Searchable callbacks ranking set held before) (value : Value)
    (window : Window) (ordered : window.low ≤ window.high)
    (inside : window.high ≤ held.items.toList.length)
    (splits : ranking.Splits before.ordinals held.items.toList value window.low window.high) :
    Succeeds (search callbacks set value window) before fun position after =>
      before.Advances after ∧ position ≤ held.items.toList.length ∧
        ranking.Splits after.ordinals held.items.toList value position position := by
  -- The window shrinks around the place of the value. Each comparison may hand out ordinals, but
  -- what has been split stays split under later tables.
  induction width : window.width using Nat.strongRecOn generalizing window before with
  | ind width ih =>
    rw [search.eq_def]
    split
    next wide =>
      have narrows : window.Narrows := middle_inside wide inside searchable.fits
      have middleInside : window.middle < held.items.toList.length :=
        Nat.lt_of_lt_of_le narrows.2 inside
      rw [if_pos narrows]
      refine (compareItem_ranks searchable middleInside value).bind fun reply middle told => ?_
      obtain ⟨advances, settled, order_eq⟩ := told
      have searchable := searchable.advances advances
      have splits := splits.of_le advances.ordinals
      split
      next below =>
        have below : ranking.Below middle.ordinals held.items.toList[window.middle] value :=
          ⟨settled, by simpa [Reply.isBelow, order_eq] using below⟩
        refine (ih window.above.width (width ▸ window.width_above_lt narrows) searchable
          window.above narrows.2 inside
          (splits.raise searchable.ascends middleInside below) rfl).imp fun position after found => ?_
        exact ⟨advances.trans found.1, found.2⟩
      next notBelow =>
        have notBelow : ranking.NotBelow middle.ordinals held.items.toList[window.middle] value :=
          ⟨settled, by simpa [Reply.isBelow, order_eq] using notBelow⟩
        refine (ih window.below.width (width ▸ window.width_below_lt narrows) searchable
          window.below narrows.1 (Nat.le_of_lt middleInside)
          (splits.lower searchable.ascends middleInside notBelow) rfl).imp
            fun position after found => ?_
        exact ⟨advances.trans found.1, found.2⟩
    next closed =>
      have same : window.high = window.low := by omega
      refine Succeeds.of_pure ⟨.refl before, by omega, ?_⟩
      rw [same] at splits
      exact splits

structure Located (ranking : Ranking) (ordinals : Ordinals) (items : List Value) (value : Value)
    (location : Location) : Prop where
  inside : location.position ≤ items.length
  splits : ranking.Splits ordinals items value location.position location.position
  found : location.found = true ↔
    ∃ item, items[location.position]? = some item ∧ ranking.order ordinals item value = .eq

theorem locate_located (searchable : Searchable callbacks ranking set held before) (value : Value) :
    Succeeds (locate callbacks set value) before fun location after =>
      before.Advances after ∧ Located ranking after.ordinals held.items.toList value location := by
  apply Succeeds.bind_eq (state_eq searchable.there)
  have whole := Ranking.Splits.whole ranking before.ordinals held.items.toList value
  refine (search_splits searchable value ⟨0, held.items.size⟩ (Nat.zero_le _) (Nat.le_refl _)
    whole).bind fun position middle split => ?_
  obtain ⟨advances, inside, splits⟩ := split
  have searchable := searchable.advances advances
  apply Succeeds.bind_eq (state_eq searchable.there)
  split
  next there =>
    have there : position < held.items.toList.length := there
    refine (compareItem_ranks searchable there value).bind fun reply after told => ?_
    obtain ⟨later, settled, order_eq⟩ := told
    refine Succeeds.of_pure ⟨advances.trans later, inside, splits.of_le later.ordinals, ?_⟩
    have item : held.items.toList[position]? = some held.items.toList[position] :=
      List.getElem?_eq_getElem there
    simp only [Reply.isEqual, order_eq, item, beq_iff_eq, Option.some.injEq, exists_eq_left']
  next =>
    refine Succeeds.of_pure ⟨advances, inside, splits, ?_⟩
    have past : position = held.items.toList.length := by
      simp only [Array.length_toList] at inside ⊢
      omega
    simp [past]

end OrderedSet

end Collections
