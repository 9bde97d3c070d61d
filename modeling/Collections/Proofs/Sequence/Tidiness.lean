import Collections.Proofs.Sequence.Growth
import Collections.Proofs.Sequence.Soundness

set_option autoImplicit false

namespace Collections

namespace Storage

def references (storage : Storage) : List Value :=
  storage.slots.toList.filterMap id ++ storage.aside.map Prod.snd ++ storage.behind.map Prod.snd

/--
The first `count` slots are assigned and no others. Nothing is kept aside as long as every position has
a slot of its own.
-/
structure Tidy (storage : Storage) (count : Nat) : Prop where
  assigned : ∀ slot, (storage.assigned? slot).isSome ↔ slot < count
  room : count ≤ storage.slots.size
  reach : storage.reach = 0
  behind : storage.behind = []
  named : ∀ entry ∈ storage.aside, ∃ name, entry.1 = .named name
  aside : storage.slots.size < 1 <<< 32 → storage.aside = []

namespace Tidy

variable {storage : Storage} {count slot : Nat}

theorem capacity_eq (tidy : storage.Tidy count) : storage.capacity = storage.slots.size := by
  simp [capacity, tidy.reach]

theorem write (tidy : storage.Tidy count) (there : slot < storage.slots.size) (value : Value)
    {now : Nat} (room : now ≤ storage.slots.size)
    (below : ∀ other, other < now ↔ other = slot ∨ other < count) :
    (storage.write slot value).Tidy now := by
  constructor
  case assigned =>
    intro other
    rw [assigned?_write, below]
    split
    next same => simp [same]
    next differ => simpa [differ] using tidy.assigned other
  all_goals rw [Lays.write_slots there]
  case room => simpa using room
  case reach => exact tidy.reach
  case behind => exact tidy.behind
  case named => exact tidy.named
  case aside => simpa using tidy.aside

theorem write_inside (tidy : storage.Tidy count) (inside : slot < count) (value : Value) :
    (storage.write slot value).Tidy count :=
  tidy.write (Nat.lt_of_lt_of_le inside tidy.room) value tidy.room fun other => by omega

theorem write_end (tidy : storage.Tidy count) (room : count < storage.slots.size) (value : Value) :
    (storage.write count value).Tidy (count + 1) :=
  tidy.write room value room fun other => by omega

theorem writeFrom_inside (tidy : storage.Tidy count) (slot : Nat) (values : List Value)
    (inside : slot + values.length ≤ count) : (storage.writeFrom slot values).Tidy count := by
  induction values generalizing storage slot with
  | nil => exact tidy
  | cons value rest ih =>
    rw [List.length_cons] at inside
    exact ih (tidy.write_inside (by omega) value) (slot + 1) (by omega)

theorem writeFrom_end (tidy : storage.Tidy count) (values : List Value)
    (room : count + values.length ≤ storage.slots.size) :
    (storage.writeFrom count values).Tidy (count + values.length) := by
  induction values generalizing storage count with
  | nil => exact tidy
  | cons value rest ih =>
    rw [List.length_cons] at room
    have there : count < storage.slots.size := by omega
    have next := ih (tidy.write_end there value) (by rw [Lays.write_size there]; omega)
    rwa [Nat.add_right_comm, Nat.add_assoc] at next

theorem blank (capacity : Nat) : Tidy { slots := Array.replicate capacity none } 0 where
  assigned slot := by
    by_cases inside : slot < capacity <;> simp [assigned?, keptAside?, inside]
  room := Nat.zero_le _
  reach := rfl
  behind := rfl
  named := by simp
  aside _ := rfl

theorem filled (count : Nat) (value : Value) : (Storage.filled count value).Tidy count where
  assigned slot := by
    by_cases inside : slot < count <;> simp [Storage.filled, assigned?, keptAside?, inside]
  room := by simp [Storage.filled]
  reach := rfl
  behind := rfl
  named := by simp [Storage.filled]
  aside _ := rfl

theorem reallocate (storage : Storage) {count capacity : Nat} (room : count ≤ capacity) :
    (storage.reallocate count capacity).Tidy count := by
  have written := (blank capacity).writeFrom_end (storage.valuesFrom 0 count)
    (by simpa [valuesFrom] using room)
  have copied : 0 + (storage.valuesFrom 0 count).length = count := by simp [valuesFrom]
  rwa [copied] at written

theorem reallocate_size (storage : Storage) {count capacity : Nat} (room : count ≤ capacity) :
    (storage.reallocate count capacity).slots.size = capacity := by
  rw [Storage.reallocate, Lays.writeFrom_size (by simpa [valuesFrom] using room)]
  simp

theorem unassign_last (tidy : storage.Tidy count) : (storage.unassign (count - 1)).Tidy (count - 1) := by
  have room := tidy.room
  constructor
  case assigned =>
    intro other
    by_cases last : other = count - 1
    next =>
      rw [last, assigned?_unassign_self]
      simp
    next =>
      rw [assigned?_unassign _ _ _ last, tidy.assigned other]
      omega
  all_goals
    unfold unassign
    split
  case room.isTrue => simpa using by omega
  case room.isFalse => exact Nat.le_trans (Nat.sub_le count 1) room
  case reach.isTrue | reach.isFalse => exact tidy.reach
  case behind.isTrue | behind.isFalse => exact tidy.behind
  case named.isTrue => exact tidy.named
  case named.isFalse => exact fun entry member => tidy.named entry (List.mem_filter.1 member).1
  case aside.isTrue => simpa using tidy.aside
  case aside.isFalse => exact fun small => by simp [dropAside, tidy.aside small]

theorem shiftOut (tidy : storage.Tidy count) (slot : Nat) :
    (storage.shiftOut slot count).Tidy (count - 1) := by
  let later := storage.valuesFrom (slot + 1) (count - (slot + 1))
  have moved : (storage.writeFrom slot later).Tidy count := by
    by_cases inside : slot < count
    next =>
      refine tidy.writeFrom_inside slot later ?_
      simp only [later, valuesFrom, List.length_map, List.length_range']
      omega
    next =>
      have nothing : count - (slot + 1) = 0 := by omega
      simpa [later, nothing, valuesFrom, writeFrom] using tidy
  exact moved.unassign_last

theorem turn (tidy : storage.Tidy count) : (storage.turn count).Tidy count := by
  have whole : (storage.valuesFrom 0 count).length = count := by simp [valuesFrom]
  refine (tidy.writeFrom_inside 0 _ ?_).writeFrom_inside _ _ ?_
  · rw [List.length_take, List.length_reverse, whole]
    omega
  · rw [List.length_drop, List.length_reverse, whole]
    omega

theorem turn_size (tidy : storage.Tidy count) :
    (storage.turn count).slots.size = storage.slots.size := by
  have room := tidy.room
  have whole : (storage.valuesFrom 0 count).length = count := by simp [valuesFrom]
  have front : 0 + ((storage.valuesFrom 0 count).reverse.take (count / 2)).length ≤
      storage.slots.size := by
    rw [List.length_take, List.length_reverse, whole]
    omega
  have same := Lays.writeFrom_size front
  rw [Storage.turn, Lays.writeFrom_size, same]
  rw [same, List.length_drop, List.length_reverse, whole]
  omega

theorem putAside (tidy : storage.Tidy count) (large : 1 <<< 32 ≤ storage.slots.size) (name : String)
    (value : Value) : (storage.putAside (.named name) value).Tidy count where
  assigned slot := by
    have slots : (storage.putAside (.named name) value).slots = storage.slots := rfl
    rw [← tidy.assigned slot]
    simp [assigned?, slots, keptAside?_putAside]
  room := tidy.room
  reach := tidy.reach
  behind := tidy.behind
  named := by
    refine List.forall_mem_cons.2 ⟨⟨name, rfl⟩, fun entry member => ?_⟩
    exact tidy.named entry (List.mem_filter.1 member).1
  aside small := absurd large (Nat.not_le_of_lt small)

theorem covers (tidy : storage.Tidy count) : storage.Covers count where
  room := tidy.capacity_eq ▸ tidy.room
  assigned slot := (tidy.assigned slot).2

theorem assigned?_eq (tidy : storage.Tidy count) (slot : Nat) :
    storage.assigned? slot = (storage.valuesFrom 0 count)[slot]? := by
  by_cases inside : slot < count
  next =>
    have held : storage.held? slot = storage.assigned? slot := by simp [held?, tidy.behind]
    rw [← held, tidy.covers.held?_eq inside]
    simp [valuesFrom, inside]
  next =>
    have missing : storage.assigned? slot = none := by simpa using mt (tidy.assigned slot).1 inside
    simp [missing, valuesFrom, inside]

theorem slots_eq (tidy : storage.Tidy count) : storage.slots.toList =
    (storage.valuesFrom 0 count).map some ++ List.replicate (storage.slots.size - count) none := by
  have room := tidy.room
  refine List.ext_getElem (by simp [valuesFrom]; omega) fun slot left right => ?_
  have there : slot < storage.slots.size := left
  have kept : storage.slots.toList[slot] = storage.assigned? slot := by simp [assigned?, there]
  rw [kept, tidy.assigned?_eq slot, List.getElem_append]
  split
  next inside =>
    have inside : slot < (storage.valuesFrom 0 count).length := by simpa using inside
    rw [List.getElem_map, List.getElem?_eq_getElem inside]
  next past =>
    have past : (storage.valuesFrom 0 count).length ≤ slot := by simpa using past
    rw [List.getElem_replicate, List.getElem?_eq_none past]

theorem references_eq (tidy : storage.Tidy count) (small : storage.capacity < 1 <<< 32) :
    storage.references = storage.valuesFrom 0 count := by
  have aside := tidy.aside (tidy.capacity_eq ▸ small)
  simp [references, aside, tidy.behind, tidy.slots_eq, List.filterMap_append, List.filterMap_map]

end Tidy

end Storage

namespace Sequence

variable {held : Sequence} {slot : Nat}

structure Tidy (held : Sequence) : Prop where
  storage : held.storage.Tidy held.length
  zero : held.negativeZero = true → held.length = 0
  released : held.destroyed = true → held.capacity = 0

/--
A list refers to its elements, and to nothing else. No slot past them is assigned, the storage that it would
grow into has nothing but them, and once destroyed it has neither room nor references. From `1 <<< 32` slots
on, positions are names, under which elements could be kept aside.
-/
structure RefersToElements (held : Sequence) : Prop where
  room : held.length ≤ held.capacity
  assigned : ∀ slot, held.storage.assigned? slot = held.elements[slot]?
  references : held.capacity < 1 <<< 32 → held.storage.references = held.elements
  grown : grownCapacity held.capacity < 1 <<< 32 → held.grown.storage.references = held.elements
  released : held.destroyed = true → held.capacity = 0 ∧ held.storage.references = []

namespace Tidy

theorem length_eq_zero (tidy : held.Tidy) (empty : held.capacity = 0) : held.length = 0 :=
  Nat.le_zero.1 (empty ▸ tidy.storage.covers.room)

theorem of_fresh (fresh : held.Fresh) : held.Tidy := by
  cases fresh with
  | empty options => exact ⟨.blank 0, nofun, nofun⟩
  | nulls count negativeZero options zero => exact ⟨.filled count .null, zero, nofun⟩

theorem becomes (tidy : held.Tidy) {storage : Storage} (tidied : storage.Tidy held.length)
    (size : storage.slots.size = held.storage.slots.size) : ({ held with storage } : Sequence).Tidy where
  storage := tidied
  zero := tidy.zero
  released destroyed := by
    rw [← tidy.released destroyed]
    simp only [capacity, tidied.capacity_eq, tidy.storage.capacity_eq, size]

theorem write (tidy : held.Tidy) (inside : slot < held.length) (value : Value) :
    (held.write slot value).Tidy :=
  tidy.becomes (tidy.storage.write_inside inside value)
    (Storage.Lays.write_size (Nat.lt_of_lt_of_le inside tidy.storage.room) value)

theorem overwrite (tidy : held.Tidy) {values : List Value} (inside : values.length ≤ held.length) :
    (held.overwrite values).Tidy := by
  have fits : 0 + values.length ≤ held.length := by omega
  exact tidy.becomes (tidy.storage.writeFrom_inside 0 values fits)
    (Storage.Lays.writeFrom_size (Nat.le_trans fits tidy.storage.room))

theorem turn (tidy : held.Tidy) : held.turn.Tidy :=
  tidy.becomes tidy.storage.turn tidy.storage.turn_size

theorem grown (tidy : held.Tidy) (live : held.destroyed = false) : held.grown.Tidy where
  storage := by
    refine .reallocate held.storage ?_
    have room := tidy.storage.covers.room
    unfold grownCapacity capacity
    omega
  zero := tidy.zero
  released destroyed := by simp [Sequence.grown, live] at destroyed

theorem push (tidy : held.Tidy) (live : held.destroyed = false)
    (room : held.length < held.storage.slots.size) (value : Value) : (held.push value).Tidy where
  storage := tidy.storage.write_end room value
  zero := nofun
  released destroyed := by simp [Sequence.push, live] at destroyed

theorem extend (tidy : held.Tidy) (live : held.destroyed = false) (value : Value) :
    (held.extend value).Tidy := by
  have room := tidy.storage.covers.room
  unfold Sequence.extend Sequence.roomy
  split
  next full =>
    have larger := lt_grownCapacity held.capacity
    refine (tidy.grown live).push live ?_ value
    have size : held.grown.storage.slots.size = grownCapacity held.capacity :=
      Storage.Tidy.reallocate_size held.storage (Nat.le_trans room (Nat.le_of_lt larger))
    rw [size]
    exact Nat.lt_of_le_of_lt room larger
  next spare =>
    refine tidy.push live ?_ value
    rw [← tidy.storage.capacity_eq]
    exact Nat.lt_of_not_le spare

theorem shiftOut (tidy : held.Tidy) (slot : Nat) : (held.shiftOut slot).Tidy where
  storage := tidy.storage.shiftOut slot
  zero negative := by simp [Sequence.shiftOut, tidy.zero negative]
  released destroyed := by
    have empty := tidy.released destroyed
    have none := tidy.length_eq_zero empty
    rw [← empty]
    simp [Sequence.shiftOut, capacity, Storage.shiftOut, Storage.capacity_unassign, none,
      Storage.valuesFrom, Storage.writeFrom]

theorem putAside (tidy : held.Tidy) (large : 1 <<< 32 ≤ held.storage.slots.size) (name : String)
    (value : Value) : (held.putAside (.named name) value).Tidy :=
  tidy.becomes (tidy.storage.putAside large name value) rfl

theorem assign (tidy : held.Tidy) (destructor : Option String) :
    ({ held with destructor } : Sequence).Tidy :=
  ⟨tidy.storage, tidy.zero, tidy.released⟩

theorem release (held : Sequence) : held.release.Tidy :=
  ⟨.blank 0, nofun, fun _ => rfl⟩

theorem trim {after : Sequence} (tidy : held.Tidy) (trim : held.Trim after) : after.Tidy := by
  cases trim with
  | shiftedOut slot => exact tidy.shiftOut slot
  | turned => exact tidy.turn
  | assigned live destructor => exact tidy.assign destructor
  | abandoned => exact tidy.assign none
  | released => exact .release held

theorem refersToElements (tidy : held.Tidy) : held.RefersToElements where
  room := tidy.storage.covers.room
  assigned := tidy.storage.assigned?_eq
  references := tidy.storage.references_eq
  grown small := by
    have room := tidy.storage.covers.room
    have fits : held.length ≤ grownCapacity held.capacity := by
      unfold grownCapacity capacity
      omega
    have copied := Storage.Tidy.reallocate held.storage fits
    rw [Sequence.grown, copied.references_eq]
    next =>
      refine List.map_congr_left fun slot member => Storage.read_reallocate _ _ ?_
      simpa using member
    next => rwa [copied.capacity_eq, Storage.Tidy.reallocate_size held.storage fits]
  released destroyed := by
    have empty := tidy.released destroyed
    refine ⟨empty, ?_⟩
    rw [tidy.storage.references_eq (Nat.lt_of_le_of_lt (Nat.le_of_eq empty) (by decide)),
      tidy.length_eq_zero empty]
    rfl

end Tidy

end Sequence

end Collections
