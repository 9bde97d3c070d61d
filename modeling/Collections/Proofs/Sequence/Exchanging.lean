import Collections.Proofs.Runs.Sorting
import Mathlib.Data.List.FinRange

set_option autoImplicit false

namespace Collections

section Values

variable {α β : Type} {left right : Nat} {values : List α}

def exchange (left right : Nat) (values : List α) : List α :=
  match values[left]?, values[right]? with
  | some first, some second => (values.set left second).set right first
  | _, _ => values

-- Exchanges the values from a position on, each in its turn, with those at other positions.
def exchangeEach (position : Nat) : List Nat → List α → List α
  | [], values => values
  | other :: others, values => exchangeEach (position + 1) others (exchange position other values)

theorem exchange_eq (leftInside : left < values.length) (rightInside : right < values.length) :
    exchange left right values = (values.set left values[right]).set right values[left] := by
  simp [exchange, leftInside, rightInside]

theorem exchange_perm (left right : Nat) (values : List α) : (exchange left right values).Perm values := by
  unfold exchange
  split
  next first second there also =>
    obtain ⟨leftInside, rfl⟩ := List.getElem?_eq_some_iff.1 there
    obtain ⟨rightInside, rfl⟩ := List.getElem?_eq_some_iff.1 also
    exact List.set_set_perm leftInside rightInside
  next => exact .refl values

theorem exchange_map (change : α → β) (left right : Nat) (values : List α) :
    exchange left right (values.map change) = (exchange left right values).map change := by
  unfold exchange
  rw [List.getElem?_map, List.getElem?_map]
  cases values[left]? <;> cases values[right]? <;> simp [List.map_set]

theorem exchange_append (front : List α) (left right : Nat) (values : List α) :
    exchange (front.length + left) (front.length + right) (front ++ values) =
      front ++ exchange left right values := by
  have behind (position : Nat) : (front ++ values)[front.length + position]? = values[position]? := by
    simp [List.getElem?_append_right]
  unfold exchange
  rw [behind, behind]
  cases values[left]? <;> cases values[right]? <;> simp [List.set_append_right]

theorem exchangeEach_concat (position : Nat) (others : List Nat) (other : Nat) (values : List α) :
    exchangeEach position (others ++ [other]) values =
      exchange (position + others.length) other (exchangeEach position others values) := by
  induction others generalizing position values with
  | nil => rfl
  | cons first rest ih =>
    rw [List.cons_append, exchangeEach, ih, exchangeEach, List.length_cons, Nat.add_right_comm,
      Nat.add_assoc]

theorem exchangeEach_map (change : α → β) (position : Nat) (others : List Nat) (values : List α) :
    exchangeEach position others (values.map change) =
      (exchangeEach position others values).map change := by
  induction others generalizing position values with
  | nil => rfl
  | cons other rest ih => rw [exchangeEach, exchange_map, ih, exchangeEach]

theorem exists_exchangeEach {values wanted : List α} (permuted : wanted.Perm values) (front : List α) :
    ∃ others : List Nat, others.length = values.length ∧
      (∀ other ∈ others, other < front.length + values.length) ∧
        exchangeEach front.length others (front ++ values) = front ++ wanted := by
  induction wanted generalizing values front with
  | nil => exact ⟨[], by simp [permuted.nil_eq.symm, exchangeEach]⟩
  | cons first rest ih =>
    obtain ⟨position, inside, found⟩ := List.getElem_of_mem (permuted.subset List.mem_cons_self)
    have moved := exchange_perm 0 position values
    obtain ⟨later, brings⟩ : ∃ later, exchange 0 position values = first :: later := by
      cases values with
      | nil => simp at inside
      | cons value values =>
        rw [exchange_eq (Nat.zero_lt_succ _) inside, found]
        cases position <;> simp_all
    rw [brings] at moved
    obtain ⟨others, many, within, settles⟩ := ih (permuted.trans moved.symm).cons_inv (front ++ [first])
    have length := moved.length_eq
    rw [List.length_cons] at length
    refine ⟨(front.length + position) :: others, by simp [many, length], ?_, ?_⟩
    · simp only [List.length_append, List.length_singleton] at within
      rw [List.forall_mem_cons]
      exact ⟨by omega, fun other member => by have := within other member; omega⟩
    · have here := exchange_append front 0 position values
      rw [Nat.add_zero, brings] at here
      rw [exchangeEach, here]
      simpa using settles

theorem exists_exchangeEach_arranges {count : Nat} (arrangement : Equiv.Perm (Fin count)) :
    ∃ others : List Nat, others.length = count ∧ (∀ other ∈ others, other < count) ∧
      ∀ values : List α, values.length = count → ∀ position : Fin count,
        (exchangeEach 0 others values)[position.val]? = values[(arrangement position).val]? := by
  obtain ⟨others, many, within, settles⟩ := exists_exchangeEach arrangement.map_finRange_perm []
  simp only [List.length_finRange, List.length_nil, Nat.zero_add, List.nil_append] at many within settles
  refine ⟨others, many, within, ?_⟩
  rintro values rfl position
  have exchanged : exchangeEach 0 others values =
      ((List.finRange values.length).map arrangement).map (values[·.val]) := by
    rw [← settles, ← exchangeEach_map, List.map_getElem_finRange]
  simp [exchanged]

end Values

namespace Sequence

variable {held shuffled : Sequence} {left right slot : Nat} {draws : List Nat}

def swapSlots (held : Sequence) (left right : Nat) : Sequence :=
  (held.write left (held.storage.read right)).write right (held.storage.read left)

theorem length_elements (held : Sequence) : held.elements.length = held.length := by
  simp [elements, Storage.valuesFrom]

theorem elements_swapSlots (leftInside : left < held.length) (rightInside : right < held.length) :
    (held.swapSlots left right).elements = exchange left right held.elements := by
  have read {slot : Nat} (inside : slot < held.elements.length) :
      held.storage.read slot = held.elements[slot] := by
    simp [elements, Storage.valuesFrom]
  rw [← held.length_elements] at leftInside rightInside
  rw [exchange_eq leftInside rightInside, ← read leftInside, ← read rightInside]
  unfold elements swapSlots write
  rw [Storage.valuesFrom_write, Storage.valuesFrom_write]

structure ShuffledBy (held : Sequence) (draws : List Nat) (shuffled : Sequence) : Prop
    extends held.Rearranged shuffled where
  exchanged : shuffled.elements = exchangeEach 0 draws held.elements
  spare : ∀ slot, held.length ≤ slot →
    shuffled.storage.assigned? slot = held.storage.assigned? slot

theorem ShuffledBy.length_eq (shuffles : held.ShuffledBy draws shuffled) :
    shuffled.length = held.length := by
  rw [shuffles.rest]

theorem ShuffledBy.start (held : Sequence) : held.ShuffledBy [] held :=
  ⟨⟨.refl _, rfl, fun _ _ => rfl, rfl⟩, rfl, fun _ _ => rfl⟩

theorem ShuffledBy.exchange (shuffles : held.ShuffledBy draws shuffled) (steady : shuffled.Steady)
    (turn : draws.length < held.length) (inside : slot < held.length) :
    held.ShuffledBy (draws ++ [slot]) (shuffled.swapSlots draws.length slot) := by
  have room := steady.covers.room
  rw [shuffles.length_eq] at room
  have elements : (shuffled.swapSlots draws.length slot).elements =
      Collections.exchange draws.length slot shuffled.elements :=
    elements_swapSlots (shuffles.length_eq.symm ▸ turn) (shuffles.length_eq.symm ▸ inside)
  refine ⟨⟨?_, ?_, fun spare beyond => ?_, ?_⟩, ?_, fun spare beyond => ?_⟩
  · rw [elements]
    exact (exchange_perm _ _ _).trans shuffles.elements
  · rw [← shuffles.capacity]
    unfold capacity swapSlots write
    rw [Storage.capacity_write, Storage.capacity_write]
    omega
  · rw [← shuffles.behind spare beyond]
    unfold swapSlots write
    rw [Storage.read_write, if_neg (by omega), Storage.read_write, if_neg (by omega)]
  · conv_lhs => rw [shuffles.rest]
    rfl
  · rw [elements, shuffles.exchanged, exchangeEach_concat, Nat.zero_add]
  · rw [← shuffles.spare spare beyond]
    unfold swapSlots write
    rw [Storage.assigned?_write, if_neg (by omega), Storage.assigned?_write, if_neg (by omega)]

end Sequence

end Collections
