import Collections.Sequence

set_option autoImplicit false

namespace Collections

namespace Storage

structure Lays (storage : Storage) (values : List Value) : Prop where
  assigned : ∀ slot, slot < values.length → storage.slots[slot]? = some values[slot]?
  reach : storage.reach = 0
  aside : storage.aside = []
  parent : storage.parent = .shared
  behind : storage.behind = []

namespace Lays

variable {storage : Storage} {values written : List Value} {slot count : Nat}

theorem length_le (lays : storage.Lays values) : values.length ≤ storage.slots.size := by
  refine Nat.le_of_not_lt fun short => ?_
  have past := lays.assigned storage.slots.size short
  simp at past

theorem capacity_eq (lays : storage.Lays values) : storage.capacity = storage.slots.size := by
  simp [capacity, lays.reach]

theorem blank (capacity : Nat) : Lays { slots := Array.replicate capacity none } [] := by
  constructor <;> simp

theorem filled (count : Nat) (value : Value) :
    (Storage.filled count value).Lays (List.replicate count value) where
  assigned slot inside := by
    rw [List.length_replicate] at inside
    simp [Storage.filled, inside]
  reach := rfl
  aside := rfl
  parent := rfl
  behind := rfl

theorem held?_eq (lays : storage.Lays values) (inside : slot < values.length) :
    storage.held? slot = some values[slot] := by
  unfold held? assigned?
  rw [lays.assigned slot inside, List.getElem?_eq_getElem inside]
  rfl

theorem read_eq (lays : storage.Lays values) (inside : slot < values.length) :
    storage.read slot = values[slot] := by
  rw [read, lays.held?_eq inside]
  rfl

theorem valuesFrom_eq (lays : storage.Lays values) (inside : slot + count ≤ values.length) :
    storage.valuesFrom slot count = (values.drop slot).take count := by
  refine List.ext_getElem (by simp [valuesFrom]; omega) fun position left right => ?_
  have inside : slot + position < values.length := by
    simp only [valuesFrom, List.length_map, List.length_range'] at left
    omega
  simp [valuesFrom, lays.read_eq inside]

theorem valuesFrom_zero (lays : storage.Lays values) :
    storage.valuesFrom 0 values.length = values := by
  rw [lays.valuesFrom_eq (by omega), List.drop_zero, List.take_length]

theorem held_eq (lays : storage.Lays values) : storage.held values.length = values.map some := by
  have fits : min values.length storage.capacity = values.length := by
    rw [lays.capacity_eq]
    exact Nat.min_eq_left lays.length_le
  refine List.ext_getElem (by simp [held, heldFrom, fits]) fun position left right => ?_
  have inside : position < values.length := by simpa using right
  simp [held, heldFrom, lays.held?_eq inside]

theorem write_slots (there : slot < storage.slots.size) (value : Value) :
    storage.write slot value =
      { storage with slots := storage.slots.setIfInBounds slot (some value) } := by
  rw [write, if_pos there]

theorem write_inside (lays : storage.Lays values) (inside : slot < values.length) (value : Value) :
    (storage.write slot value).Lays (values.set slot value) := by
  have there := Nat.lt_of_lt_of_le inside lays.length_le
  rw [write_slots there]
  refine ⟨fun position below => ?_, lays.reach, lays.aside, lays.parent, lays.behind⟩
  rw [List.length_set] at below
  rw [Array.getElem?_setIfInBounds, List.getElem?_set]
  split
  next same =>
    subst same
    rfl
  next => exact lays.assigned position below

theorem write_end (lays : storage.Lays values) (room : values.length < storage.slots.size)
    (value : Value) : (storage.write values.length value).Lays (values ++ [value]) := by
  rw [write_slots room]
  refine ⟨fun position below => ?_, lays.reach, lays.aside, lays.parent, lays.behind⟩
  rw [List.length_append, List.length_singleton] at below
  rw [Array.getElem?_setIfInBounds]
  split
  next same =>
    subst same
    simp
  next differ =>
    have earlier : position < values.length := by omega
    rw [lays.assigned position earlier, List.getElem?_append_left earlier]

theorem write_size (there : slot < storage.slots.size) (value : Value) :
    (storage.write slot value).slots.size = storage.slots.size := by
  rw [write_slots there, Array.size_setIfInBounds]

theorem writeFrom_size (room : slot + written.length ≤ storage.slots.size) :
    (storage.writeFrom slot written).slots.size = storage.slots.size := by
  induction written generalizing storage slot with
  | nil => rfl
  | cons value rest ih =>
    rw [List.length_cons] at room
    have there : slot < storage.slots.size := by omega
    have same := write_size there value
    rw [writeFrom, ih (by omega), same]

theorem writeFrom_end (lays : storage.Lays values) (written : List Value)
    (room : values.length + written.length ≤ storage.slots.size) :
    (storage.writeFrom values.length written).Lays (values ++ written) := by
  induction written generalizing storage values with
  | nil => simpa [writeFrom] using lays
  | cons value rest ih =>
    rw [List.length_cons] at room
    have there : values.length < storage.slots.size := by omega
    have next := ih (lays.write_end there value) (by rw [write_size there]; simp; omega)
    simpa [writeFrom] using next

theorem writeFrom_inside (lays : storage.Lays values) (slot : Nat) (written : List Value)
    (inside : slot + written.length ≤ values.length) :
    (storage.writeFrom slot written).Lays
      (values.take slot ++ written ++ values.drop (slot + written.length)) := by
  induction written generalizing storage values slot with
  | nil => simpa [writeFrom] using lays
  | cons value rest ih =>
    rw [List.length_cons] at inside
    have there : slot < values.length := by omega
    have next := ih (lays.write_inside there value) (slot + 1) (by simp; omega)
    have same : (values.set slot value).take (slot + 1) ++ rest ++
        (values.set slot value).drop (slot + 1 + rest.length) =
          values.take slot ++ value :: rest ++ values.drop (slot + (rest.length + 1)) := by
      rw [List.take_succ_eq_append_getElem (by simpa using there), List.getElem_set_self,
        List.take_set_of_le (Nat.le_refl slot), List.drop_set_of_lt (by omega)]
      simp [Nat.add_comm, Nat.add_left_comm]
    rw [same] at next
    exact next

theorem unassign_last (lays : storage.Lays values) (some : values ≠ []) :
    (storage.unassign (values.length - 1)).Lays values.dropLast := by
  have fewer := lays.length_le
  have positive := List.length_pos_iff.2 some
  rw [unassign, if_pos (by omega)]
  refine ⟨fun position below => ?_, lays.reach, lays.aside, lays.parent, lays.behind⟩
  rw [List.length_dropLast] at below
  rw [Array.getElem?_setIfInBounds, if_neg (by omega), lays.assigned position (by omega),
    List.getElem?_dropLast, if_pos below]

theorem shiftOut_eraseIdx (lays : storage.Lays values) (inside : slot < values.length) :
    (storage.shiftOut slot values.length).Lays (values.eraseIdx slot) := by
  unfold shiftOut
  have later : storage.valuesFrom (slot + 1) (values.length - (slot + 1)) = values.drop (slot + 1) := by
    rw [lays.valuesFrom_eq (by omega), ← List.length_drop, List.take_length]
  rw [later]
  have shifted : (storage.writeFrom slot (values.drop (slot + 1))).Lays
      (values.eraseIdx slot ++ values.drop (values.length - 1)) := by
    have written := lays.writeFrom_inside slot (values.drop (slot + 1))
      (by rw [List.length_drop]; omega)
    have last : slot + (values.drop (slot + 1)).length = values.length - 1 := by
      rw [List.length_drop]
      omega
    rwa [last, ← List.eraseIdx_eq_take_drop_succ] at written
  have tail : (values.drop (values.length - 1)).length = 1 := by
    rw [List.length_drop]
    omega
  obtain ⟨last, same⟩ := List.length_eq_one_iff.1 tail
  rw [same] at shifted
  have whole : (values.eraseIdx slot ++ [last]).length = values.length := by
    rw [List.length_append, List.length_eraseIdx_of_lt inside, List.length_singleton]
    omega
  have released := shifted.unassign_last (by simp)
  rwa [whole, List.dropLast_concat] at released

theorem take_turned (values : List Value) :
    (values.reverse.take (values.length / 2) ++ values.drop (values.length / 2)).take
        (values.length - values.length / 2) =
      values.reverse.take (values.length - values.length / 2) := by
  have front : (values.reverse.take (values.length / 2)).length = values.length / 2 := by
    rw [List.length_take, List.length_reverse]
    omega
  rcases Nat.mod_two_eq_zero_or_one values.length with even | odd
  · have half : values.length - values.length / 2 = values.length / 2 := by omega
    rw [half, List.take_append_of_le_length (by omega), List.take_of_length_le (by omega)]
  · have half : values.length - values.length / 2 = values.length / 2 + 1 := by omega
    have inside : values.length / 2 < values.length := by omega
    have insideToo : values.length / 2 < values.reverse.length := by simpa using inside
    have turned : values.reverse[values.length / 2] = values[values.length / 2] := by
      rw [List.getElem_reverse]
      congr 1
      omega
    have right : values.reverse.take (values.length / 2 + 1) =
        values.reverse.take (values.length / 2) ++ [values[values.length / 2]] := by
      rw [List.take_succ_eq_append_getElem insideToo, turned]
    rw [half, right, List.take_append, List.take_of_length_le (by omega), front,
      List.drop_eq_getElem_cons inside, Nat.add_sub_cancel_left, List.take_succ_cons, List.take_zero]

theorem turn_reverse (lays : storage.Lays values) :
    (storage.turn values.length).Lays values.reverse := by
  unfold turn
  rw [lays.valuesFrom_zero]
  dsimp only
  have front : (storage.writeFrom 0 (values.reverse.take (values.length / 2))).Lays
      (values.reverse.take (values.length / 2) ++ values.drop (values.length / 2)) := by
    have half : (values.reverse.take (values.length / 2)).length = values.length / 2 := by
      rw [List.length_take, List.length_reverse]
      omega
    have written := lays.writeFrom_inside 0 (values.reverse.take (values.length / 2))
      (by rw [half]; omega)
    simpa [half] using written
  have both := front.writeFrom_inside (values.length - values.length / 2)
    (values.reverse.drop (values.length - values.length / 2)) (by simp; omega)
  rw [take_turned, List.take_append_drop] at both
  have nothing : (values.reverse.take (values.length / 2) ++ values.drop (values.length / 2)).drop
      (values.length - values.length / 2 +
        (values.reverse.drop (values.length - values.length / 2)).length) = [] := by
    apply List.drop_eq_nil_of_le
    simp
    omega
  rwa [nothing, List.append_nil] at both

theorem reallocate (lays : storage.Lays values) {capacity : Nat} (room : values.length ≤ capacity) :
    (storage.reallocate values.length capacity).Lays values := by
  unfold Storage.reallocate
  rw [lays.valuesFrom_zero]
  have blank := Lays.blank capacity
  have written := blank.writeFrom_end values (by simpa using room)
  simpa using written

theorem reallocate_size (lays : storage.Lays values) {capacity : Nat}
    (room : values.length ≤ capacity) :
    (storage.reallocate values.length capacity).slots.size = capacity := by
  unfold Storage.reallocate
  rw [lays.valuesFrom_zero, writeFrom_size (by simpa using room)]
  simp

end Lays

end Storage

end Collections
