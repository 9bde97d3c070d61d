import Collections.Proofs.Runs.Soundness
import Collections.Proofs.Sequence.Growth
import Collections.Proofs.StableSort.Judging

set_option autoImplicit false

-- Sorting lists. Whatever a comparator answers, if only it answers and leaves the list alone, the
-- elements come back in some order over the slots that they had; if it judges by an order, they come
-- back as the stable sort has them, and to sort them once more changes nothing.

namespace Collections

open Std StableSort

variable {Outside : Type} {callbacks : Callbacks Outside} {comparator : ComparatorId}
  {list : Handle Sequence}

def Callbacks.ComparesApart (callbacks : Callbacks Outside) (comparator : ComparatorId)
    (list : Handle Sequence) : Prop :=
  ∀ left right before, Succeeds (callbacks.compare comparator left right) before fun reply after =>
    reply.integer = false ∧
      after.containers.lists.cell? list = before.containers.lists.cell? list

namespace StableSort

structure Arranged (order : Value → Value → Ordering) (items sorted : List Value) : Prop where
  ascending : sorted.Pairwise fun earlier later => order later earlier ≠ .lt
  classes : KeepsClasses order items sorted
  undefined : ∀ front rest, sorted = front ++ .undefined :: rest →
    (∀ value ∈ front, order .undefined value ≠ .lt) ∧ ∀ value ∈ rest, order value .undefined ≠ .lt

theorem Ascending.arranged {order : Value → Value → Ordering} [TransCmp order]
    {items sorted : List Value} (ascending : Ascending order sorted)
    (classes : KeepsClasses order items sorted) : Arranged order items sorted where
  ascending := ascending.imp fun inOrder => (isLE_iff_ne_lt order).1 inOrder
  classes := classes
  undefined := by
    rintro front rest rfl
    obtain ⟨_, behind, across⟩ := List.pairwise_append.1 ascending
    refine ⟨fun value inFront => ?_, fun value inRest => ?_⟩
    · exact (isLE_iff_ne_lt order).1 (across value inFront .undefined List.mem_cons_self)
    · exact (isLE_iff_ne_lt order).1 ((List.pairwise_cons.1 behind).1 value inRest)

end StableSort

theorem Storage.read_writeFrom_above (storage : Storage) {slot other : Nat} (values : List Value)
    (above : slot + values.length ≤ other) :
    (storage.writeFrom slot values).read other = storage.read other := by
  induction values generalizing storage slot with
  | nil => rfl
  | cons value rest ih =>
    rw [List.length_cons] at above
    rw [writeFrom, ih _ (by omega), read_write, if_neg (by omega)]

namespace Sequence

variable {held sorted : Sequence} {before : State Outside}

structure Rearranged (held sorted : Sequence) : Prop where
  elements : sorted.elements.Perm held.elements
  capacity : sorted.capacity = held.capacity
  behind : ∀ slot, held.length ≤ slot → sorted.storage.read slot = held.storage.read slot
  rest : sorted = { held with storage := sorted.storage }

theorem elements_overwrite {values : List Value} (whole : values.length = held.length) :
    (held.overwrite values).elements = values := by
  refine List.ext_getElem (by simp [elements, Storage.valuesFrom, overwrite, whole]) ?_
  intro position _ inside
  have written := held.storage.read_writeFrom 0 (List.getElem?_eq_getElem inside)
  rw [Nat.zero_add] at written
  simpa [elements, Storage.valuesFrom, overwrite] using written

theorem overwrite_rearranged (room : held.length ≤ held.capacity) {values : List Value}
    (permuted : values.Perm held.elements) : held.Rearranged (held.overwrite values) := by
  have whole : values.length = held.length := by
    simpa [elements, Storage.valuesFrom] using permuted.length_eq
  refine ⟨(elements_overwrite whole).symm ▸ permuted, ?_, fun slot behind => ?_, rfl⟩
  · exact Storage.capacity_writeFrom fun index inside => by
      rw [Nat.zero_add]
      exact Nat.lt_of_lt_of_le (whole ▸ inside) room
  · exact held.storage.read_writeFrom_above values (by omega)

theorem sort_rearranges (ordinary : callbacks.Ordinary) (apart : callbacks.ComparesApart comparator list)
    (there : before.containers.lists.cell? list = some held) (steady : held.Steady)
    (live : held.destroyed = false) :
    Succeeds (sort callbacks list (some comparator)) before fun _ after =>
      ∃ sorted, after.containers.lists.cell? list = some sorted ∧ sorted.Steady ∧
        held.Rearranged sorted ∧
          ∀ ranking, callbacks.Judges (some comparator) ranking →
            before.ordinals ≤ after.ordinals ∧ ∀ late, after.ordinals ≤ late →
              Ascending (ranking.order late) sorted.elements ∧
                KeepsClasses (ranking.order late) held.elements sorted.elements := by
  apply Succeeds.bind_eq (requireLive_eq there live .sort)
  refine (copyOut_all ordinary there steady).bind fun copied copying told => ?_
  obtain ⟨rfl, rfl⟩ := told
  have copied : (held.elements.map some).filterMap id = held.elements := by
    simp [List.filterMap_map]
  rw [copied]
  have answers (left right : Value) (early : State Outside) :
      Succeeds (callbacks.below (some comparator) left right) early fun _ after =>
        after.containers.lists.cell? list = early.containers.lists.cell? list := by
    refine (apart left right early).bind fun reply after ⟨number, same⟩ => ?_
    exact ⟨reply.isBelow, after, by rw [Reply.sortsBelow, number]; rfl, same⟩
  have compares (left right : Value) :
      Keeps (fun state => state.containers.lists.cell? list = some held)
        (callbacks.below (some comparator) left right) :=
    fun early kept => (answers left right early).ends.imp (fun _ _ same => same.trans kept)
      fun _ _ failed => failed
  have succeeds := sort_succeeds
    (fun left right early => (answers left right early).imp fun _ _ _ => trivial) held.elements copying
  obtain ⟨values, middle, answered, permuted, kept⟩ :=
    succeeds.and (Keeps.sort compares held.elements copying there)
  apply Succeeds.bind_eq answered
  apply Succeeds.bind_eq rfl
  have whole : values.length = (held.elements.map some).length := by simpa using permuted.length_eq
  rw [if_neg (by omega)]
  refine Succeeds.of_pure ⟨held.overwrite values, ?_, ?_, ?_, fun ranking judges => ?_⟩
  · dsimp only
    rw [Table.cell?_modify, if_pos rfl, kept]
    rfl
  · exact (Edit.overwritten values).steady steady
  · exact overwrite_rearranged steady.covers.room permuted
  · rw [elements_overwrite (by simpa [elements, Storage.valuesFrom] using whole)]
    simpa only [Ends, answered] using sort_settles judges held.elements copying

end Sequence

/--
A live list at any moment of a run is sorted whatever a comparator answers that leaves it alone: no
element is lost, and nothing else of the list changes. If the comparator judges by an order, the sort is
stable, and to sort the list once more leaves it as it is.
-/
theorem lists_sort_stably {host : Callbacks Diary} (ordinary : host.Ordinary) (conducts : Conducts)
    (depth : Nat) (script : List Operation) :
    ∀ moment ∈ (conducts.final host depth script).outside.moments, ∀ list held,
      moment.lists.cell? list = some held → held.destroyed = false →
        ∀ (Outside : Type) (surroundings : Surroundings Outside) comparator,
          surroundings.toCallbacks.Ordinary → surroundings.toCallbacks.ComparesApart comparator list →
            ∀ state : State Outside, state.containers = moment →
              Succeeds (perform surroundings (.sort list comparator)) state fun _ after =>
                ∃ sorted, after.containers.lists.cell? list = some sorted ∧ held.Rearranged sorted ∧
                  ∀ ranking, surroundings.toCallbacks.Judges (some comparator) ranking →
                    (∀ late, after.ordinals ≤ late →
                      Arranged (ranking.order late) held.elements sorted.elements) ∧
                    Succeeds (perform surroundings (.sort list comparator)) after fun _ again =>
                      ∃ resorted, again.containers.lists.cell? list = some resorted ∧
                        sorted.Rearranged resorted ∧ resorted.elements = sorted.elements := by
  rintro moment member list held there live Outside surroundings comparator callbacks apart state rfl
  have lasting := final_lasts ordinary conducts depth script
  have steady := lasting.steady _ (List.mem_append_left _ member) list held there
  refine (Sequence.sort_rearranges callbacks apart there steady live).bind fun _ after told => ?_
  obtain ⟨sorted, now, stays, rearranged, sorts⟩ := told
  refine Succeeds.of_pure ⟨sorted, now, rearranged, fun ranking judges => ⟨fun late extended => ?_, ?_⟩⟩
  · obtain ⟨ascending, classes⟩ := (sorts ranking judges).2 late extended
    exact ascending.arranged classes
  have lives : sorted.destroyed = false := rearranged.rest ▸ live
  refine (Sequence.sort_rearranges callbacks apart now stays lives).bind fun _ again told => ?_
  obtain ⟨resorted, there, _, repeated, resorts⟩ := told
  refine Succeeds.of_pure ⟨resorted, there, repeated, ?_⟩
  -- Both results are the stable sort of the same classes under the ordinals that there are in the end.
  obtain ⟨extended, resorts⟩ := resorts ranking judges
  obtain ⟨ascending, _⟩ := (sorts ranking judges).2 again.ordinals extended
  obtain ⟨ascends, same⟩ := resorts again.ordinals (Ordinals.le_refl _)
  exact (ascending.eq_of_keepsClasses ascends same).symm

instance : IsStrictWeakOrder Value fun left right => left.rank < right.rank where
  irrefl _ := Int.lt_irrefl _
  trans _ _ _ := Int.lt_trans
  incomp_trans := by omega

theorem lists_sort_stably_by_rank :
    let ranking := Ranking.ofBelow fun left right => left.rank < right.rank
    let surroundings : Surroundings Diary :=
      { Callbacks.plain Diary fun _ left right => if left.rank < right.rank then .lt else .gt with
        test := fun _ _ => return true }
    let moments := (Conducts.still.final (Callbacks.plain Diary fun _ => compareOn Value.rank) 1
      [.listOf [.integer 2, .undefined, .null, .integer 1, .undefined] {}]).outside.moments
    let rearranged := [.undefined, .undefined, .null, .integer 2, .integer 1]
    (moments.drop 1).length = 1 ∧ ∀ moment ∈ moments.drop 1,
      Succeeds (perform surroundings (.sort ⟨0⟩ ⟨0⟩)) { containers := moment, outside := {} }
        fun _ after => ∃ sorted, after.containers.lists.cell? ⟨0⟩ = some sorted ∧
          sorted.elements = rearranged ∧ sorted.capacity = 5 ∧
            Arranged (ranking.order after.ordinals)
              [.integer 2, .undefined, .null, .integer 1, .undefined] sorted.elements ∧
            Succeeds (perform surroundings (.sort ⟨0⟩ ⟨0⟩)) after fun _ again =>
              ∃ resorted, again.containers.lists.cell? ⟨0⟩ = some resorted ∧
                sorted.Rearranged resorted ∧ resorted.elements = rearranged := by
  intro ranking surroundings moments rearranged
  have facts : ∀ moment ∈ moments.drop 1,
      (moment.lists.cell? ⟨0⟩).map (fun held => (held.elements, held.capacity, held.destroyed)) =
          some ([.integer 2, .undefined, .null, .integer 1, .undefined], 5, false) ∧
        ((attempt (perform surroundings (.sort ⟨0⟩ ⟨0⟩)) { containers := moment, outside := {} }
          ).2.containers.lists.cell? ⟨0⟩).map Sequence.elements = some rearranged := by
    decide +kernel
  have judges : surroundings.toCallbacks.Judges (some ⟨0⟩) ranking := by
    refine Callbacks.judges_ofBelow _ fun left right before => ?_
    have answers : Succeeds (surroundings.compare ⟨0⟩ left right) before fun reply after =>
        before.ordinals ≤ after.ordinals ∧ (reply.isBelow ↔ left.rank < right.rank) := by
      refine ⟨_, _, rfl, Ordinals.le_refl _, ?_⟩
      by_cases lower : left.rank < right.rank <;> simp [Reply.isBelow, lower]
    exact answers.ends
  refine ⟨by decide +kernel, fun moment member => ?_⟩
  obtain ⟨created, ordered⟩ := facts moment member
  obtain ⟨held, there, same⟩ := Option.map_eq_some_iff.1 created
  simp only [Prod.mk.injEq] at same
  obtain ⟨elements, capacity, live⟩ := same
  obtain ⟨_, after, sorts, sorted, now, rearranges, arranges⟩ := lists_sort_stably
    (Callbacks.plain_ordinary Diary _) Conducts.still 1 _ moment (List.mem_of_mem_drop member) ⟨0⟩ held
    there live Diary surroundings ⟨0⟩ (Callbacks.plain_ordinary Diary _)
    (fun _ _ _ => ⟨_, _, rfl, rfl, rfl⟩) { containers := moment, outside := {} } rfl
  obtain ⟨stable, again⟩ := arranges ranking judges
  have result : sorted.elements = rearranged := by
    have left : (attempt (perform surroundings (.sort ⟨0⟩ ⟨0⟩))
        { containers := moment, outside := {} }).2 = after := by simp only [attempt, sorts]
    rw [left, now] at ordered
    exact Option.some.inj ordered
  refine ⟨_, after, sorts, sorted, now, result, rearranges.capacity.trans capacity, ?_, ?_⟩
  · exact elements ▸ stable after.ordinals (Ordinals.le_refl _)
  · exact result ▸ again

end Collections
