import Collections.Proofs.Runs.Releasing
import Collections.Proofs.Runs.Teardown

set_option autoImplicit false

namespace Collections

open Std

namespace Value

/-- Values are level if they are alike, or if one is a number and the other the integer of its value. -/
def coincides : Value → Value → Bool
  | .number held, .integer whole | .integer whole, .number held => held.toInt? == some whole
  | left, right => left.alike right

theorem alike_of_identical {left right : Value} (same : left.identical right) : left.alike right := by
  unfold alike
  split
  · rfl
  · exact same

theorem places_eq_iff (held : Number) (whole : Int) :
    (∃ place, held.place? = some place ∧ (Value.integer whole).place? = some place) ↔
      held.toInt? = some whole := by
  rw [Number.toInt?_eq_some]
  cases held with
  | nan => simp [Number.place?, Number.units?]
  | infinite negative => cases negative <;> simp [place?, Number.place?, Number.units?]
  | finite => simp [place?, Number.place?, eq_comm]

theorem coincides_iff_level (left right : Value) : left.coincides right ↔ left.Level right := by
  unfold coincides
  split
  next held whole =>
    simp [Level, identical, ← places_eq_iff, place?]
  next whole held =>
    simp [Level, identical, ← places_eq_iff, place?, and_comm]
  next other flipped =>
    constructor
    · intro alike
      unfold Value.alike at alike
      split at alike
      · exact .inr (.inl ⟨rfl, rfl⟩)
      · exact .inl alike
    · rintro (same | ⟨rfl, rfl⟩ | ⟨place, leftPlace, rightPlace⟩)
      · exact alike_of_identical same
      · rfl
      · -- Only numbers and integers have places, and the two are not one of each.
        cases left <;> cases right <;> simp only [Value.place?, reduceCtorEq] at leftPlace rightPlace
        next left right =>
          exact alike_of_identical (Number.same_of_place?_eq leftPlace rightPlace)
        next held whole => exact (other held whole rfl rfl).elim
        next whole held => exact (flipped whole held rfl rfl).elim
        next left right =>
          cases leftPlace
          have units : right * Number.one = left * Number.one := by simpa using rightPlace
          obtain rfl : right = left := Int.eq_of_mul_eq_mul_right Number.one_ne_zero units
          exact alike_of_identical (by simp [identical])

namespace Level

variable {left middle right : Value}

-- An order that knows a value has nothing at its place but what is level with it.

theorem refl (value : Value) : value.Level value := by
  have known : value ∈ (⟨[value]⟩ : Ordinals).known := List.mem_cons_self
  exact level_of_order_eq_of_mem known ReflCmp.compare_self

theorem symm (level : left.Level right) : right.Level left := by
  have equal := order_eq_of_level ⟨[right]⟩ level
  exact level_of_order_eq_of_mem List.mem_cons_self (OrientedCmp.eq_symm equal)

theorem trans (first : left.Level middle) (second : middle.Level right) : left.Level right := by
  have lower := order_eq_of_level ⟨[left]⟩ first
  have equal := TransCmp.eq_trans lower (order_eq_of_level ⟨[left]⟩ second)
  exact level_of_order_eq_of_mem List.mem_cons_self equal

theorem isNull_eq (level : left.Level right) (null : right.isNull = true) : left.isNull = true := by
  cases right <;> cases null
  rcases level with same | ⟨_, other⟩ | ⟨_, _, other⟩
  · cases left <;> cases same
    rfl
  · cases other
  · cases other

end Level

end Value

theorem exists_firstOfLevel {values : List Value} {value : Value} (member : value ∈ values) :
    ∃ first, FirstOfLevel values first ∧ value.Level first := by
  have itself := (Value.coincides_iff_level value value).2 (.refl value)
  have found : (values.find? value.coincides).isSome := List.find?_isSome.2 ⟨value, member, itself⟩
  obtain ⟨first, found⟩ := Option.isSome_iff_exists.1 found
  obtain ⟨level, earlier, later, whole, others⟩ := List.find?_eq_some_iff_append.1 found
  have level := (Value.coincides_iff_level value first).1 level
  refine ⟨first, ⟨earlier, later, whole, fun other before same => ?_⟩, level⟩
  have coincides := (Value.coincides_iff_level value other).2 (level.trans same)
  simpa [coincides] using others other before

-- No two items of an ascending list are level with one value.
theorem Ranking.Ascends.countP_eq_one {ordinals : Ordinals} {items : List Value} {value item : Value}
    (ascends : Ranking.natural.Ascends ordinals items) (member : item ∈ items)
    (level : value.Level item) : items.countP value.coincides = 1 := by
  have coincides := (Value.coincides_iff_level value item).2 level
  have some : 0 < items.countP value.coincides := List.countP_pos_iff.2 ⟨item, member, coincides⟩
  have ascends : Ranking.natural.Ascends ordinals (items.filter value.coincides) := ascends.filter _
  rw [List.countP_eq_length_filter] at some ⊢
  have all : ∀ item ∈ items.filter value.coincides, value.Level item := fun item member =>
    (Value.coincides_iff_level value item).1 (List.mem_filter.1 member).2
  generalize items.filter value.coincides = kept at some ascends all ⊢
  match kept with
  | [_] => rfl
  | first :: second :: _ =>
    have below := (List.rel_of_pairwise_cons ascends List.mem_cons_self).2
    have same := order_eq_of_level ordinals
      ((all first (by simp)).symm.trans (all second (by simp)))
    cases below.symm.trans same

section Handover

variable {host : Callbacks Diary} {others : Conducts}

/--
A list that becomes a set loses no element: when the set ends, the destructor of the list is called with
elements of the list only, and for each that is not null with exactly one that coincides with it.
-/
theorem elements_released_after_handover (ordinary : host.Ordinary) (releases : others.Releases)
    (conducts : Conducts) (depth : Nat) (script : List Operation) {list : Handle Sequence}
    {held : Sequence} {name : String}
    (there : (conducts.final host depth script).containers.lists.cell? list = some held)
    (live : held.destroyed = false) (owns : held.destructor = some name) :
    Succeeds (do
        let set ← Sequence.convertToOrderedSet (others.quietly host).toCallbacks list
        OrderedSet.destroy (others.quietly host).toCallbacks set) (conducts.final host depth script)
      fun _ after => ∃ released : List Value,
        after.outside.destructed = (conducts.final host depth script).outside.destructed ++
          released.map (fun value => (name, value)) ∧
          (∀ value ∈ released, value ∈ held.elements ∧ value.isNull = false) ∧
            ∀ value ∈ held.elements, value.isNull = false →
              released.countP value.coincides = 1 := by
  have steady := (final_lasts ordinary conducts depth script).now list held there
  have converts : Succeeds (Sequence.convertToOrderedSet (others.quietly host).toCallbacks list) _ _ :=
    Sequence.convertToOrderedSet_converts (quietly_ordinary ordinary) there steady live
  refine (converts.and (convertToOrderedSet_silent ordinary list _)).bind fun set middle told => ?_
  obtain ⟨⟨_, _, items, owned, ascends, firsts⟩, silent⟩ := told
  refine (OrderedSet.destroy_traces releases set middle).imp fun _ after traced => ?_
  rw [Table.get_of_cell? owned, owns, silent] at traced
  refine ⟨items.toList.filter fun value => !value.isNull, traced, fun value member => ?_,
    fun value member full => ?_⟩
  next =>
    obtain ⟨kept, full⟩ := List.mem_filter.1 member
    obtain ⟨earlier, later, whole, _⟩ := (firsts value).1 (Array.mem_toList_iff.1 kept)
    exact ⟨by simp [whole], by simpa using full⟩
  next =>
    obtain ⟨first, kept, level⟩ := exists_firstOfLevel member
    have kept := Array.mem_toList_iff.2 ((firsts first).2 kept)
    have whole : first.isNull = false := by
      cases null : first.isNull with
      | false => rfl
      | true => exact absurd (level.isNull_eq null) (by simp [full])
    exact Ranking.Ascends.countP_eq_one (ascends.filter _)
      (List.mem_filter.2 ⟨kept, by simp [whole]⟩) level

theorem elements_released_after_handover_of_ones :
    let host := Callbacks.plain Diary fun _ => compareOn Value.rank
    let elements : List Value := [.integer 1, .null, .text "one", .number (.ofNat 1), .text "one"]
    let start := Conducts.still.final host 1 [.listOf elements { destructor := some "free" }]
    Succeeds (do
        let set ← Sequence.convertToOrderedSet (Conducts.still.quietly host).toCallbacks ⟨0⟩
        OrderedSet.destroy (Conducts.still.quietly host).toCallbacks set) start fun _ after =>
      ∃ released : List Value,
        after.outside.destructed = released.map (fun value => ("free", value)) ∧
          .null ∉ released ∧ released.countP (Value.text "one").coincides = 1 ∧
            released.countP (Value.integer 1).coincides = 1 := by
  intro host elements start
  have ordinary : host.Ordinary := Callbacks.plain_ordinary Diary _
  have releases : Conducts.still.Releases := fun _ _ _ => rfl
  have there : start.containers.lists.cell? ⟨0⟩ = some (start.containers.lists.get ⟨0⟩) := rfl
  have holds : (start.containers.lists.get ⟨0⟩).elements = elements := by decide +kernel
  refine (elements_released_after_handover ordinary releases Conducts.still 1 _ there rfl rfl).imp
    fun _ after told => ?_
  obtain ⟨released, traced, within, once⟩ := told
  refine ⟨released, traced, fun null => ?_, once _ ?_ rfl, once _ ?_ rfl⟩
  · cases (within _ null).2
  · rw [holds]; decide
  · rw [holds]; decide

theorem integer_not_released_beside_number :
    let host := Callbacks.plain Diary fun _ => compareOn Value.rank
    let elements : List Value := [.number (.ofNat 1), .integer 1]
    let start := Conducts.still.final host 1 [.listOf elements { destructor := some "free" }]
    (Value.number (.ofNat 1)).alike (.integer 1) = false ∧
      Succeeds (do
          let set ← Sequence.convertToOrderedSet (Conducts.still.quietly host).toCallbacks ⟨0⟩
          OrderedSet.destroy (Conducts.still.quietly host).toCallbacks set) start fun _ after =>
        after.outside.destructed = [("free", .number (.ofNat 1))] := by
  intro host elements start
  refine ⟨by decide +kernel, ?_⟩
  let converted :=
    attempt (Sequence.convertToOrderedSet (Conducts.still.quietly host).toCallbacks ⟨0⟩) start
  have made : converted.1.toOption = some ⟨0⟩ := by decide +kernel
  have silent : converted.2.outside.destructed = [] := by decide +kernel
  have kept : owing (converted.2.containers.sets.get ⟨0⟩).destructor
      (converted.2.containers.sets.get ⟨0⟩).items.toList = [("free", .number (.ofNat 1))] := by
    decide +kernel
  apply Succeeds.bind_eq (eq_ok_of_attempt made)
  refine (OrderedSet.destroy_traces (fun _ _ _ => rfl) ⟨0⟩ converted.2).imp fun _ after traced => ?_
  rw [traced, silent, kept, List.nil_append]

end Handover

end Collections
