import Collections.Proofs.Callbacks
import Collections.Proofs.Number
import Collections.Proofs.Sequence.Layout
import Collections.Sequence.Operations

set_option autoImplicit false

namespace Collections

open Storage

namespace Sequence

structure Shows (list : Sequence) (values : List Value) : Prop where
  live : list.destroyed = false
  lays : list.storage.Lays values
  length_eq : list.length = values.length
  negativeZero : list.negativeZero = true → values = []

namespace Shows

variable {list : Sequence} {values : List Value} {slot : Nat}

theorem create (options : ListOptions) : (Sequence.create options).Shows [] where
  live := rfl
  lays := Lays.blank 0
  length_eq := rfl
  negativeZero := nofun

theorem elements_eq (shows : list.Shows values) : list.elements = values := by
  unfold elements
  rw [shows.length_eq, shows.lays.valuesFrom_zero]

theorem held_eq (shows : list.Shows values) : list.held = values.map some := by
  unfold held
  rw [shows.length_eq, shows.lays.held_eq]

theorem find?_eq (shows : list.Shows values) (value : Value) :
    list.find? value = values.findIdx? fun element => element.identical value := by
  unfold find?
  rw [shows.elements_eq]

theorem slot?_eq_some (shows : list.Shows values) (index : Value) :
    list.slot? index = some slot ↔ index.Names slot ∧ slot < values.length := by
  unfold slot?
  split
  next number =>
    rw [Option.filter_eq_some_iff, Value.names_number, Number.toNat?_eq_some, decide_eq_true_iff,
      shows.length_eq]
  next other =>
    refine ⟨nofun, fun ⟨⟨number, named, _⟩, _⟩ => (other number named).elim⟩

theorem reportedLength_same (shows : list.Shows values) :
    list.reportedLength.same (.ofNat values.length) = true := by
  unfold reportedLength
  split
  next negative =>
    rw [shows.negativeZero negative]
    rfl
  next =>
    rw [shows.length_eq]
    exact Number.ofNat_same values.length

theorem length_le (shows : list.Shows values) : values.length ≤ list.capacity := by
  unfold capacity
  rw [shows.lays.capacity_eq]
  exact shows.lays.length_le

theorem grown (shows : list.Shows values) : list.grown.Shows values where
  live := shows.live
  lays := by
    unfold Sequence.grown
    rw [shows.length_eq]
    exact shows.lays.reallocate (by have := shows.length_le; unfold grownCapacity; omega)
  length_eq := shows.length_eq
  negativeZero := shows.negativeZero

theorem grown_room (shows : list.Shows values) :
    values.length < list.grown.storage.slots.size := by
  have fits := shows.length_le
  unfold Sequence.grown
  rw [shows.length_eq, shows.lays.reallocate_size (by unfold grownCapacity; omega)]
  unfold grownCapacity
  omega

theorem push (shows : list.Shows values) (room : values.length < list.storage.slots.size)
    (value : Value) : (list.push value).Shows (values ++ [value]) where
  live := shows.live
  lays := by
    unfold Sequence.push
    rw [shows.length_eq]
    exact shows.lays.write_end room value
  length_eq := by simp [Sequence.push, shows.length_eq]
  negativeZero := nofun

theorem write (shows : list.Shows values) (inside : slot < values.length) (value : Value) :
    (list.write slot value).Shows (values.set slot value) where
  live := shows.live
  lays := shows.lays.write_inside inside value
  length_eq := by simp [Sequence.write, shows.length_eq]
  negativeZero negative := by
    rw [shows.negativeZero negative] at inside
    exact absurd inside (Nat.not_lt_zero slot)

theorem shiftOut (shows : list.Shows values) (inside : slot < values.length) :
    (list.shiftOut slot).Shows (values.eraseIdx slot) where
  live := shows.live
  lays := by
    unfold Sequence.shiftOut
    rw [shows.length_eq]
    exact shows.lays.shiftOut_eraseIdx inside
  length_eq := by
    rw [List.length_eraseIdx_of_lt inside, ← shows.length_eq]
    rfl
  negativeZero negative := by
    rw [shows.negativeZero negative] at inside
    exact absurd inside (Nat.not_lt_zero slot)

theorem turn (shows : list.Shows values) : list.turn.Shows values.reverse where
  live := shows.live
  lays := by
    unfold Sequence.turn
    rw [shows.length_eq]
    exact shows.lays.turn_reverse
  length_eq := by simp [Sequence.turn, shows.length_eq]
  negativeZero negative := by simp [shows.negativeZero negative]

end Shows

def Showing {Outside : Type} (list : Handle Sequence) (values : List Value)
    (state : State Outside) : Prop :=
  ∃ held, state.containers.lists.cell? list = some held ∧ held.Shows values

section Actions

variable {Outside : Type} {callbacks : Callbacks Outside} {list : Handle Sequence}
  {held : Sequence} {values : List Value} {before : State Outside}

theorem state_eq (there : before.containers.lists.cell? list = some held) :
    state list before = .ok held before := by
  rw [← Table.get_of_cell? there]
  rfl

theorem requireLive_eq (there : before.containers.lists.cell? list = some held)
    (live : held.destroyed = false) (operation : ListOperation) :
    requireLive list operation before = .ok () before := by
  change (if (before.containers.lists.get list).destroyed then
    throw (.list (.destroyed operation)) else pure () : Action Outside Unit) before = _
  rw [Table.get_of_cell? there, live]
  rfl

theorem look_eq {storage : Storage} (lays : storage.Lays values) (name : String) :
    look callbacks storage name = callbacks.lookAbove .shared name := by
  simp [look, keptAside?, lays.aside, lays.parent]

theorem copyOut_copies (copies : callbacks.CopyPlainStorages) (showing : Showing list values before) :
    Succeeds (copyOut callbacks list) before fun copied after =>
      before.Advances after ∧ copied = values.map some := by
  obtain ⟨held, there, shows⟩ := showing
  apply Succeeds.bind_eq (state_eq there)
  rw [look_eq shows.lays, look_eq shows.lays, shows.held_eq]
  have copying : Succeeds (callbacks.requirePlainCopyable >>= fun _ => pure (values.map some)) before
      fun copied after => before.Advances after ∧ copied = values.map some :=
    (copies before).bind fun _ after advances => Succeeds.of_pure ⟨advances, rfl⟩
  simpa only [Callbacks.requirePlainCopyable, bind_assoc] using copying

end Actions

end Sequence

end Collections
