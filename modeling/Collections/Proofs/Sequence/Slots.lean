import Collections.Sequence
import Mathlib.Data.Nat.Digits.Defs

set_option autoImplicit false

namespace Collections

namespace Number

def isNumeral (character : Char) : Bool :=
  character.isDigit || ['+', '-', '.', 'e', 'N', 'a', 'I', 'n', 'f', 'i', 't', 'y'].contains character

theorem toDigits_numeral (value : Nat) : ∀ digit ∈ Nat.toDigits 10 value, isNumeral digit := by
  intro digit member
  have isDigit := Nat.isDigit_of_mem_toDigits (by decide) (by decide) member
  simp [isNumeral, isDigit]

theorem layout_numeral {digits : List Char} (numeral : ∀ digit ∈ digits, isNumeral digit)
    (position : Int) : ∀ character ∈ (layout digits position).toList, isNumeral character := by
  have early (count : Nat) : ∀ digit ∈ digits.take count, isNumeral digit :=
    fun digit member => numeral digit (List.mem_of_mem_take member)
  have late (count : Nat) : ∀ digit ∈ digits.drop count, isNumeral digit :=
    fun digit member => numeral digit (List.mem_of_mem_drop member)
  have exponent : ∀ digit ∈ (toString (position - 1).natAbs).toList, isNumeral digit := by
    simpa [toString, Nat.repr] using toDigits_numeral (position - 1).natAbs
  have marks : isNumeral '0' ∧ isNumeral '.' ∧ isNumeral 'e' ∧ isNumeral '+' ∧ isNumeral '-' := by
    decide
  unfold layout zeros
  split
  next => simpa [or_imp, forall_and, marks] using numeral
  next =>
    split
    next => simpa [or_imp, forall_and, marks] using ⟨early _, late _⟩
    next =>
      split
      next => simpa [or_imp, forall_and, marks] using numeral
      next =>
        have first := early 1
        have rest := late 1
        dsimp only
        split <;> split <;> simp_all [or_imp]

theorem signedText_numeral (negative : Bool) {text : String}
    (numeral : ∀ character ∈ text.toList, isNumeral character) :
    ∀ character ∈ (signedText negative text).toList, isNumeral character := by
  have minus : isNumeral '-' := by decide
  cases negative
  · exact numeral
  · simpa [signedText, minus] using numeral

theorem toText_numeral (number : Number) :
    ∀ character ∈ number.toText.toList, isNumeral character := by
  unfold toText
  split
  next => exact List.all_eq_true.1 (by decide)
  next => exact signedText_numeral _ (List.all_eq_true.1 (by decide))
  next =>
    split
    next => exact List.all_eq_true.1 (by decide)
    next => exact signedText_numeral _ (layout_numeral (toDigits_numeral _) _)

end Number

namespace Storage

variable {storage : Storage} {count slot other : Nat} {value : Value}

theorem keptAside?_dropAside (storage : Storage) (dropped position : Position) :
    (storage.dropAside dropped).keptAside? position =
      if position = dropped then none else storage.keptAside? position := by
  unfold keptAside? dropAside
  dsimp only
  by_cases same : position = dropped
  next => simpa [same, List.lookup_eq_none_iff] using fun _ _ _ => Ne.symm
  next =>
    rw [if_neg same]
    induction storage.aside with
    | nil => rfl
    | cons entry rest ih =>
      obtain ⟨key, value⟩ := entry
      by_cases gone : key = dropped <;> simp_all [List.lookup_cons, beq_eq_decide]

theorem keptAside?_putAside (storage : Storage) (put position : Position) (value : Value) :
    (storage.putAside put value).keptAside? position =
      if position = put then some value else storage.keptAside? position := by
  have others := keptAside?_dropAside storage put position
  unfold keptAside? at others
  unfold keptAside? putAside
  by_cases same : position = put <;> simp_all [List.lookup_cons, beq_eq_decide]

theorem assigned?_write (storage : Storage) (slot : Nat) (value : Value) (other : Nat) :
    (storage.write slot value).assigned? other =
      if other = slot then some value else storage.assigned? other := by
  unfold write
  split
  next inside =>
    by_cases same : other = slot
    next => simp [assigned?, same, inside]
    next => simp [assigned?, keptAside?, same, Ne.symm same]
  next =>
    split
    next ends =>
      have dropped := keptAside?_dropAside storage (.slot slot) (.slot other)
      have slots : (storage.dropAside (.slot slot)).slots = storage.slots := rfl
      unfold keptAside? at dropped
      by_cases same : other = slot
      next =>
        have added : (storage.slots.push (some value))[slot]? = some (some value) := by simp [ends]
        simp only [assigned?, slots, same, added, ↓reduceIte]
      next => simp_all [assigned?, keptAside?, Array.getElem?_push]
    next past =>
      have put := keptAside?_putAside storage (.slot slot) (.slot other) value
      have slots : (storage.putAside (.slot slot) value).slots = storage.slots := rfl
      unfold keptAside? at put
      by_cases same : other = slot
      next =>
        have missing : storage.slots[slot]? = none := Array.getElem?_eq_none (by omega)
        simp_all [assigned?, keptAside?]
      next => simp_all [assigned?, keptAside?]

theorem capacity_write (storage : Storage) (slot : Nat) (value : Value) :
    (storage.write slot value).capacity = max storage.capacity (slot + 1) := by
  unfold write
  split
  next => simp only [capacity, Array.size_setIfInBounds]; omega
  next =>
    split
    next => simp only [capacity, dropAside, Array.size_push]; omega
    next => simp only [capacity, putAside, dropAside]; omega

theorem read_write (storage : Storage) (slot : Nat) (value : Value) (other : Nat) :
    (storage.write slot value).read other = if other = slot then value else storage.read other := by
  have behind : (storage.write slot value).behind = storage.behind := by
    unfold write
    split
    next => rfl
    next => split <;> rfl
  unfold read held?
  rw [assigned?_write, behind]
  split <;> rfl

theorem read_writeFrom_below (storage : Storage) {slot other : Nat} (values : List Value)
    (below : other < slot) : (storage.writeFrom slot values).read other = storage.read other := by
  induction values generalizing storage slot with
  | nil => rfl
  | cons value rest ih =>
    rw [writeFrom, ih _ (Nat.lt_succ_of_lt below), read_write, if_neg (Nat.ne_of_lt below)]

theorem read_writeFrom (storage : Storage) (slot : Nat) {values : List Value} {index : Nat}
    {value : Value} (written : values[index]? = some value) :
    (storage.writeFrom slot values).read (slot + index) = value := by
  induction values generalizing storage slot index with
  | nil => cases written
  | cons first rest ih =>
    cases index with
    | zero =>
      cases written
      change ((storage.write slot value).writeFrom (slot + 1) rest).read slot = value
      rw [read_writeFrom_below _ _ (Nat.lt_succ_self slot), read_write, if_pos rfl]
    | succ index =>
      have later := ih (storage.write slot first) (slot + 1) written
      rwa [Nat.add_assoc, Nat.add_comm 1] at later

theorem read_reallocate (storage : Storage) {slot count : Nat} (capacity : Nat) (inside : slot < count) :
    (storage.reallocate count capacity).read slot = storage.read slot := by
  have copied : (storage.valuesFrom 0 count)[slot]? = some (storage.read slot) := by
    simp [valuesFrom, inside]
  have written := read_writeFrom { slots := Array.replicate capacity none } 0 copied
  rwa [Nat.zero_add] at written

theorem valuesFrom_write (storage : Storage) (slot count : Nat) (value : Value) :
    (storage.write slot value).valuesFrom 0 count = (storage.valuesFrom 0 count).set slot value := by
  refine List.ext_getElem (by simp [valuesFrom]) fun position left right => ?_
  simp [valuesFrom, read_write, List.getElem_set, eq_comm]

theorem assigned?_unassign (storage : Storage) (slot other : Nat) (differ : other ≠ slot) :
    (storage.unassign slot).assigned? other = storage.assigned? other := by
  unfold unassign
  split
  next => simp [assigned?, keptAside?, Ne.symm differ]
  next =>
    have dropped := keptAside?_dropAside storage (.slot slot) (.slot other)
    have slots : (storage.dropAside (.slot slot)).slots = storage.slots := rfl
    simp_all [assigned?]

theorem assigned?_unassign_self (storage : Storage) (slot : Nat) :
    (storage.unassign slot).assigned? slot = none := by
  unfold unassign
  split
  next inside => simp [assigned?, inside]
  next past =>
    have dropped := keptAside?_dropAside storage (.slot slot) (.slot slot)
    have missing : (storage.dropAside (.slot slot)).slots[slot]? = none :=
      Array.getElem?_eq_none (Nat.le_of_not_lt past)
    rw [assigned?, missing, dropped, if_pos rfl]

theorem read_unassign (storage : Storage) (slot other : Nat) (differ : other ≠ slot) :
    (storage.unassign slot).read other = storage.read other := by
  have behind : (storage.unassign slot).behind = storage.behind := by
    unfold unassign
    split <;> rfl
  unfold read held?
  rw [assigned?_unassign storage slot other differ, behind]

theorem valuesFrom_shiftOut (storage : Storage) (inside : slot < count) :
    (storage.shiftOut slot count).valuesFrom 0 (count - 1) =
      (storage.valuesFrom 0 count).eraseIdx slot := by
  refine List.ext_getElem ?_ fun position left right => ?_
  next => simp [valuesFrom, List.length_eraseIdx, inside]
  next =>
    have last : position < count - 1 := by simpa [valuesFrom] using left
    rw [List.getElem_eraseIdx]
    simp only [valuesFrom, List.getElem_map, List.getElem_range', Nat.zero_add, Nat.one_mul]
    rw [shiftOut, read_unassign _ _ _ (Nat.ne_of_lt last)]
    split
    next front => exact read_writeFrom_below _ _ front
    next behind =>
      have moved : (storage.valuesFrom (slot + 1) (count - (slot + 1)))[position - slot]? =
          some (storage.read (position + 1)) := by
        have there : position - slot < count - (slot + 1) := by omega
        have place : slot + 1 + (position - slot) = position + 1 := by omega
        simp [valuesFrom, there, place]
      have read := read_writeFrom storage slot moved
      rwa [Nat.add_sub_cancel' (Nat.le_of_not_lt behind)] at read

theorem capacity_unassign (storage : Storage) (slot : Nat) :
    (storage.unassign slot).capacity = storage.capacity := by
  unfold unassign
  split <;> simp [capacity, dropAside]

structure Covers (storage : Storage) (count : Nat) : Prop where
  room : count ≤ storage.capacity
  assigned : ∀ slot, slot < count → (storage.assigned? slot).isSome

namespace Covers

theorem write (covers : storage.Covers count) (slot : Nat) (value : Value) :
    (storage.write slot value).Covers count := by
  constructor
  next =>
    have room := covers.room
    rw [capacity_write]
    omega
  next =>
    intro other inside
    have assigned := covers.assigned other inside
    rw [assigned?_write]
    split <;> simp_all

theorem push (covers : storage.Covers count) (value : Value) :
    (storage.write count value).Covers (count + 1) := by
  constructor
  next =>
    rw [capacity_write]
    omega
  next =>
    intro other inside
    rw [assigned?_write]
    by_cases same : other = count
    next => simp [same]
    next => simpa [same] using covers.assigned other (by omega)

theorem writeFrom (covers : storage.Covers count) (slot : Nat) (values : List Value) :
    (storage.writeFrom slot values).Covers count := by
  induction values generalizing storage slot with
  | nil => exact covers
  | cons value rest ih => exact ih (covers.write slot value) (slot + 1)

theorem pushAll (covers : storage.Covers count) (values : List Value) :
    (storage.writeFrom count values).Covers (count + values.length) := by
  induction values generalizing storage count with
  | nil => exact covers
  | cons value rest ih =>
    have next := ih (covers.push value)
    rwa [Nat.add_right_comm, Nat.add_assoc] at next

theorem blank (storage : Storage) : storage.Covers 0 :=
  ⟨Nat.zero_le _, fun _ inside => absurd inside (Nat.not_lt_zero _)⟩

theorem filled (count : Nat) (value : Value) : (Storage.filled count value).Covers count := by
  constructor
  next => simp [Storage.filled, capacity]
  next =>
    intro slot inside
    simp [Storage.filled, assigned?, inside]

theorem reallocate (storage : Storage) (count capacity : Nat) :
    (storage.reallocate count capacity).Covers count := by
  have written := (blank { slots := Array.replicate capacity none }).pushAll
    (storage.valuesFrom 0 count)
  have copied : 0 + (storage.valuesFrom 0 count).length = count := by simp [valuesFrom]
  rwa [copied] at written

theorem shiftOut (covers : storage.Covers count) (slot : Nat) :
    (storage.shiftOut slot count).Covers (count - 1) := by
  have written := covers.writeFrom slot (storage.valuesFrom (slot + 1) (count - (slot + 1)))
  constructor
  next =>
    have room := written.room
    rw [Storage.shiftOut, capacity_unassign]
    omega
  next =>
    intro other inside
    rw [Storage.shiftOut, assigned?_unassign _ _ _ (by omega)]
    exact written.assigned other (by omega)

theorem turn (covers : storage.Covers count) : (storage.turn count).Covers count :=
  (covers.writeFrom 0 _).writeFrom _ _

theorem putAside (covers : storage.Covers count) (name : String) (value : Value) :
    (storage.putAside (.named name) value).Covers count := by
  constructor
  next => exact covers.room
  next =>
    intro slot inside
    have assigned := covers.assigned slot inside
    have slots : (storage.putAside (.named name) value).slots = storage.slots := rfl
    rw [assigned?, slots, keptAside?_putAside]
    simpa [assigned?] using assigned

theorem held?_eq (covers : storage.Covers count) {slot : Nat} (inside : slot < count) :
    storage.held? slot = some (storage.read slot) := by
  have assigned := covers.assigned slot inside
  unfold read held?
  cases told : storage.assigned? slot with
  | none => simp [told] at assigned
  | some value => rfl

theorem held_eq (covers : storage.Covers count) :
    storage.held count = (storage.valuesFrom 0 count).map some := by
  unfold held heldFrom valuesFrom
  rw [Nat.min_eq_left covers.room, List.map_map]
  refine List.map_congr_left fun slot member => ?_
  exact covers.held?_eq (by simpa using member)

end Covers

structure Plain (storage : Storage) : Prop where
  parent : storage.parent = .shared
  names : ∀ name value, (.named name, value) ∈ storage.aside → ∃ number : Number, name = number.toText

namespace Plain

theorem blank (slots : Array (Option Value)) : Plain { slots } where
  parent := rfl
  names := by simp

theorem dropAside (plain : storage.Plain) (position : Position) : (storage.dropAside position).Plain where
  parent := plain.parent
  names name value member := plain.names name value (List.mem_filter.1 member).1

theorem write (plain : storage.Plain) (slot : Nat) (value : Value) :
    (storage.write slot value).Plain := by
  unfold Storage.write
  split
  next => exact ⟨plain.parent, plain.names⟩
  next =>
    have others := plain.dropAside (.slot slot)
    split
    next => exact ⟨others.parent, others.names⟩
    next =>
      refine ⟨others.parent, fun name held member => others.names name held ?_⟩
      simpa [Storage.putAside] using member

theorem writeFrom (plain : storage.Plain) (slot : Nat) (values : List Value) :
    (storage.writeFrom slot values).Plain := by
  induction values generalizing storage slot with
  | nil => exact plain
  | cons value rest ih => exact ih (plain.write slot value) (slot + 1)

theorem unassign (plain : storage.Plain) (slot : Nat) : (storage.unassign slot).Plain := by
  unfold Storage.unassign
  split
  next => exact ⟨plain.parent, plain.names⟩
  next => exact plain.dropAside _

theorem putAside (plain : storage.Plain) (number : Number) (value : Value) :
    (storage.putAside (.named number.toText) value).Plain := by
  have others := plain.dropAside (.named number.toText)
  refine ⟨others.parent, fun name held member => ?_⟩
  rcases List.mem_cons.1 member with same | member
  next =>
    cases same
    exact ⟨number, rfl⟩
  next => exact others.names name held member

theorem keptAside?_eq_none (plain : storage.Plain) {word : String} (lettered : 'c' ∈ word.toList) :
    storage.keptAside? (.named word) = none := by
  refine List.lookup_eq_none_iff.2 fun entry member => ?_
  obtain ⟨position, value⟩ := entry
  simp only [bne_iff_ne]
  rintro rfl
  obtain ⟨number, rfl⟩ := plain.names word value member
  exact absurd (number.toText_numeral 'c' lettered) (by decide)

end Plain

end Storage

end Collections
