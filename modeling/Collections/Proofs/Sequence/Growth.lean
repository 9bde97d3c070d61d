import Collections.Proofs.Sequence.Slots
import Collections.Proofs.Sequence.Steps

set_option autoImplicit false

namespace Collections.Sequence

variable {Outside : Type} {callbacks : Callbacks Outside} {list : Handle Sequence} {held : Sequence}
  {before : State Outside}

def roomy (held : Sequence) : Sequence := if held.capacity ≤ held.length then held.grown else held

def extend (held : Sequence) (value : Value) : Sequence := held.roomy.push value

def growth (held : Sequence) : List (String × Notice) :=
  if held.capacity ≤ held.length then
    held.logger.toList.map (·, .storageGrown held.capacity (grownCapacity held.capacity))
  else []

def growths (held : Sequence) : List Value → List (String × Notice)
  | [] => []
  | value :: rest => held.growth ++ (held.extend value).growths rest

def tellAll (callbacks : Callbacks Outside) (notices : List (String × Notice)) (outside : Outside) :
    Outside :=
  notices.foldl (fun outside (logger, notice) => callbacks.notify logger notice outside) outside

theorem notify_tells (callbacks : Callbacks Outside)
    (there : before.containers.lists.cell? list = some held) (notice : Notice) :
    Succeeds (notify callbacks list notice) before fun _ after =>
      (before.ChangesOnly callbacks list after ∧ after.containers = before.containers) ∧
        after.outside = tellAll callbacks (held.logger.toList.map (·, notice)) before.outside := by
  have tells : Ends (notify callbacks list notice) before (fun _ after =>
      after.outside = tellAll callbacks (held.logger.toList.map (·, notice)) before.outside)
      fun _ _ => True := by
    apply Ends.bind_eq (state_eq there)
    cases held.logger <;> exact Eq.refl _
  exact (notify_notifies there notice).and tells

theorem change_silent (there : before.containers.lists.cell? list = some held)
    (callbacks : Callbacks Outside) (step : Sequence → Sequence) :
    Succeeds (change list step) before fun _ after =>
      (before.ChangesOnly callbacks list after ∧
        after.containers.lists.cell? list = some (step held)) ∧ after.outside = before.outside := by
  have silent : Ends (change list step) before (fun _ after => after.outside = before.outside)
      fun _ _ => True := by
    exact Eq.refl before.outside
  exact (change_changes callbacks there step).and silent

theorem lt_grownCapacity (capacity : Nat) : capacity < grownCapacity capacity := by
  unfold grownCapacity
  omega

theorem append_extends (callbacks : Callbacks Outside)
    (there : before.containers.lists.cell? list = some held) (live : held.destroyed = false)
    (value : Value) :
    Succeeds (append callbacks list value) before fun _ after =>
      (before.ChangesOnly callbacks list after ∧
        after.containers.lists.cell? list = some (held.extend value)) ∧
          after.outside = tellAll callbacks held.growth before.outside := by
  apply Succeeds.bind_eq (requireLive_eq there live .append)
  apply Succeeds.bind_eq (state_eq there)
  by_cases full : held.capacity ≤ held.length
  next =>
    simp only [if_pos full, extend, roomy, growth]
    refine (change_silent there callbacks grown).bind fun _ grew ⟨⟨grows, grown⟩, silent⟩ => ?_
    refine (notify_tells callbacks grown _).bind fun _ ready ⟨⟨tells, same⟩, told⟩ => ?_
    rw [← same] at grown
    refine (change_silent grown callbacks (·.push value)).imp fun _ after ⟨⟨adds, there⟩, kept⟩ => ?_
    exact ⟨⟨(grows.trans tells).trans adds, there⟩, by rw [kept, told, silent]; rfl⟩
  next =>
    simp only [if_neg full, extend, roomy, growth]
    exact change_silent there callbacks (·.push value)

theorem extend_live (live : held.destroyed = false) (value : Value) :
    (held.extend value).destroyed = false := by
  unfold extend roomy
  split <;> exact live

theorem elements_extend (held : Sequence) (value : Value) :
    (held.extend value).elements = held.elements ++ [value] := by
  have roomy (slot : Nat) (inside : slot < held.length) :
      held.roomy.storage.read slot = held.storage.read slot := by
    unfold roomy
    split
    · exact Storage.read_reallocate _ _ inside
    · rfl
  have length : held.roomy.length = held.length := by
    unfold Sequence.roomy
    split <;> rfl
  unfold elements Storage.valuesFrom extend push
  dsimp only
  rw [length, List.range'_1_concat, List.map_append, Nat.zero_add]
  congr 1
  · refine List.map_congr_left fun slot member => ?_
    have inside : slot < held.length := by simpa using member
    rw [Storage.read_write, if_neg (Nat.ne_of_lt inside), roomy slot inside]
  · simp [Storage.read_write]

theorem extendEach_live (live : held.destroyed = false) (values : List Value) :
    (values.foldl extend held).destroyed = false := by
  induction values generalizing held with
  | nil => exact live
  | cons value rest ih => exact ih (extend_live live value)

theorem tellAll_append (callbacks : Callbacks Outside) (early late : List (String × Notice))
    (outside : Outside) :
    tellAll callbacks (early ++ late) outside = tellAll callbacks late (tellAll callbacks early outside) :=
  List.foldl_append

theorem appendEach_extends (callbacks : Callbacks Outside)
    (there : before.containers.lists.cell? list = some held) (live : held.destroyed = false)
    (values : List Value) :
    Succeeds (values.forM (append callbacks list)) before fun _ after =>
      (before.ChangesOnly callbacks list after ∧
        after.containers.lists.cell? list = some (values.foldl extend held)) ∧
          after.outside = tellAll callbacks (held.growths values) before.outside := by
  induction values generalizing before held with
  | nil => exact Succeeds.of_pure ⟨⟨.refl before, there⟩, rfl⟩
  | cons value rest ih =>
    refine (append_extends callbacks there live value).bind fun _ middle ⟨⟨early, extended⟩, told⟩ => ?_
    refine (ih extended (extend_live live value)).imp fun _ after ⟨⟨late, there⟩, tells⟩ => ?_
    exact ⟨⟨early.trans late, there⟩, by rw [tells, told, growths, tellAll_append]⟩

end Collections.Sequence

namespace Collections

/-- The capacity after so many growths. -/
def stage (created growths : Nat) : Nat := ((created + 5) <<< growths) - 5

section Stages

variable {created first last : Nat}

theorem stage_zero (created : Nat) : stage created 0 = created := by simp [stage]

theorem stage_succ (created growths : Nat) :
    stage created (growths + 1) = Sequence.grownCapacity (stage created growths) := by
  have large : 5 ≤ (created + 5) <<< growths := by
    rw [Nat.shiftLeft_eq]
    exact Nat.le_trans (Nat.le_add_left 5 created) (Nat.le_mul_of_pos_right _ (Nat.two_pow_pos growths))
  simp only [stage, Sequence.grownCapacity, Nat.shiftLeft_succ]
  omega

theorem stage_lt_succ (created growths : Nat) : stage created growths < stage created (growths + 1) := by
  rw [stage_succ]
  exact Sequence.lt_grownCapacity _

theorem stage_strictMono (created : Nat) : StrictMono (stage created) :=
  strictMono_nat_of_lt_succ (stage_lt_succ created)

end Stages

namespace Storage

theorem le_capacity_write (storage : Storage) (slot : Nat) (value : Value) :
    storage.capacity ≤ (storage.write slot value).capacity := by
  rw [capacity_write]
  exact Nat.le_max_left _ _

theorem le_capacity_writeFrom (storage : Storage) (slot : Nat) (values : List Value) :
    storage.capacity ≤ (storage.writeFrom slot values).capacity := by
  induction values generalizing storage slot with
  | nil => exact Nat.le_refl _
  | cons value rest ih => exact Nat.le_trans (storage.le_capacity_write slot value) (ih _ _)

theorem capacity_blank (room : Nat) :
    ({ slots := Array.replicate room none } : Storage).capacity = room := by simp [capacity]

theorem le_capacity_reallocate {storage : Storage} {count room : Nat} (more : storage.capacity ≤ room) :
    storage.capacity ≤ (storage.reallocate count room).capacity := by
  refine Nat.le_trans more ?_
  exact Nat.le_trans (Nat.le_of_eq (capacity_blank room).symm) (le_capacity_writeFrom _ _ _)

theorem capacity_writeFrom {storage : Storage} {slot : Nat} {values : List Value}
    (fits : ∀ index, index < values.length → slot + index < storage.capacity) :
    (storage.writeFrom slot values).capacity = storage.capacity := by
  induction values generalizing storage slot with
  | nil => rfl
  | cons value rest ih =>
    rw [List.length_cons] at fits
    have same : (storage.write slot value).capacity = storage.capacity := by
      have inside := fits 0 (Nat.succ_pos _)
      rw [capacity_write]
      omega
    rw [writeFrom, ih, same]
    intro index inside
    have later := fits (index + 1) (by omega)
    omega

theorem capacity_reallocate {storage : Storage} {count room : Nat} (fits : count ≤ room) :
    (storage.reallocate count room).capacity = room := by
  have blank := capacity_blank room
  unfold reallocate
  rw [capacity_writeFrom, blank]
  intro index inside
  rw [blank]
  simp only [valuesFrom, List.length_map, List.length_range'] at inside
  omega

end Storage

namespace Sequence

variable {held : Sequence} {created first last : Nat}

theorem capacity_extend (room : held.length ≤ held.capacity) (value : Value) :
    (held.extend value).capacity =
      if held.capacity ≤ held.length then grownCapacity held.capacity else held.capacity := by
  have fits : held.length ≤ grownCapacity held.capacity := by
    unfold grownCapacity
    omega
  have grown : held.grown.storage.capacity = grownCapacity held.storage.capacity :=
    Storage.capacity_reallocate fits
  unfold extend roomy push capacity
  by_cases full : held.storage.capacity ≤ held.length
  next =>
    have length : held.grown.length = held.length := rfl
    simp only [if_pos full, Storage.capacity_write, grown, length]
    unfold capacity at room
    unfold grownCapacity
    omega
  next =>
    simp only [if_neg full, Storage.capacity_write]
    omega

theorem extend_length (held : Sequence) (value : Value) :
    (held.extend value).length = held.length + 1 := by
  unfold extend roomy
  split <;> rfl

theorem extend_logger (held : Sequence) (value : Value) : (held.extend value).logger = held.logger := by
  unfold extend roomy
  split <;> rfl

theorem extend_destructor (held : Sequence) (value : Value) :
    (held.extend value).destructor = held.destructor := by
  unfold extend roomy
  split <;> rfl

theorem extendEach_destructor (held : Sequence) (values : List Value) :
    (values.foldl extend held).destructor = held.destructor := by
  induction values generalizing held with
  | nil => rfl
  | cons value rest ih => rw [List.foldl_cons, ih, extend_destructor]

theorem extendEach_elements (held : Sequence) (values : List Value) :
    (values.foldl extend held).elements = held.elements ++ values := by
  induction values generalizing held with
  | nil => simp
  | cons value rest ih => rw [List.foldl_cons, ih, elements_extend, List.append_assoc, List.singleton_append]

theorem extendEach_length (held : Sequence) (values : List Value) :
    (values.foldl extend held).length = held.length + values.length := by
  induction values generalizing held with
  | nil => rfl
  | cons value rest ih =>
    rw [List.foldl_cons, ih, extend_length, List.length_cons]
    omega

end Sequence

def growthsBetween (logger : Option String) (created first last : Nat) : List (String × Notice) :=
  logger.toList.flatMap fun name => (List.range' first (last - first)).map fun growth =>
    (name, .storageGrown (stage created growth) (stage created (growth + 1)))

theorem growthsBetween_append (logger : Option String) (created : Nat) {first middle last : Nat}
    (early : first ≤ middle) (late : middle ≤ last) :
    growthsBetween logger created first middle ++ growthsBetween logger created middle last =
      growthsBetween logger created first last := by
  obtain ⟨some, rfl⟩ := Nat.exists_eq_add_of_le early
  obtain ⟨more, rfl⟩ := Nat.exists_eq_add_of_le late
  cases logger with
  | none => rfl
  | some name =>
    have whole : first + some + more - first = some + more := by omega
    simp only [growthsBetween, Option.toList_some, List.flatMap_singleton, ← List.map_append, whole,
      Nat.add_sub_cancel_left]
    rw [← List.range'_append_1]

/-- A list grows through stages, no further than its length asks for. -/
structure Grows (created : Nat) (early : Sequence) (first : Nat) (told : List (String × Notice))
    (late : Sequence) (last : Nat) : Prop where
  capacity : late.capacity = stage created last
  room : late.length ≤ late.capacity
  logger : late.logger = early.logger
  onward : first ≤ last
  needed : last = first ∨ stage created (last - 1) < late.length
  told : told = growthsBetween early.logger created first last

namespace Grows

variable {created first middle last : Nat} {early between late : Sequence}
  {told tells : List (String × Notice)}

theorem refl (capacity : early.capacity = stage created first) (room : early.length ≤ early.capacity) :
    Grows created early first [] early first where
  capacity := capacity
  room := room
  logger := rfl
  onward := Nat.le_refl first
  needed := .inl rfl
  told := by cases logger : early.logger <;> simp [growthsBetween]

theorem trans (grows : Grows created early first told between middle)
    (later : Grows created between middle tells late last) (longer : between.length ≤ late.length) :
    Grows created early first (told ++ tells) late last where
  capacity := later.capacity
  room := later.room
  logger := later.logger.trans grows.logger
  onward := Nat.le_trans grows.onward later.onward
  needed := by
    rcases later.needed with rfl | needed
    · exact grows.needed.imp_right fun needed => Nat.lt_of_lt_of_le needed longer
    · exact .inr needed
  told := by
    rw [grows.told, later.told, grows.logger, growthsBetween_append _ _ grows.onward later.onward]

theorem extend (capacity : early.capacity = stage created first)
    (room : early.length ≤ early.capacity) (value : Value) :
    ∃ last, Grows created early first early.growth (early.extend value) last := by
  have length := early.extend_length value
  have grown := Sequence.capacity_extend room value
  by_cases full : early.capacity ≤ early.length
  next =>
    rw [if_pos full, capacity, ← stage_succ] at grown
    have exact : early.length = stage created first := by omega
    refine ⟨first + 1, grown, ?_, early.extend_logger value, by omega, .inr (by simp; omega), ?_⟩
    · have := stage_lt_succ created first
      omega
    · rw [Sequence.growth, if_pos full, growthsBetween, Nat.add_sub_cancel_left, capacity,
        ← stage_succ]
      cases early.logger <;> simp
  next =>
    rw [if_neg full] at grown
    refine ⟨first, grown.trans capacity, by omega, early.extend_logger value, by omega, .inl rfl, ?_⟩
    simp [Sequence.growth, if_neg full, growthsBetween]

theorem extendEach (capacity : early.capacity = stage created first)
    (room : early.length ≤ early.capacity) (values : List Value) :
    ∃ last, Grows created early first (early.growths values) (values.foldl Sequence.extend early) last := by
  induction values generalizing early first with
  | nil => exact ⟨first, refl capacity room⟩
  | cons value rest ih =>
    obtain ⟨middle, grows⟩ := extend capacity room value
    obtain ⟨last, later⟩ := ih grows.capacity grows.room
    exact ⟨last, grows.trans later (Nat.le.intro (Sequence.extendEach_length _ rest).symm)⟩

theorem amid (capacity : early.capacity = stage created first) (room : early.length ≤ early.capacity)
    {some values : List Value} (begins : some <+: values) :
    (some.foldl Sequence.extend early).length ≤ (some.foldl Sequence.extend early).capacity ∧
      (some.foldl Sequence.extend early).capacity ≤ (values.foldl Sequence.extend early).capacity := by
  obtain ⟨rest, rfl⟩ := begins
  obtain ⟨middle, grows⟩ := extendEach capacity room some
  obtain ⟨last, later⟩ := extendEach grows.capacity grows.room rest
  refine ⟨grows.room, ?_⟩
  rw [List.foldl_append, grows.capacity, later.capacity]
  exact (stage_strictMono created).monotone later.onward

end Grows

namespace Sequence

section Within

variable {Outside : Type} {callbacks : Callbacks Outside} {list : Handle Sequence} {held : Sequence}
  {before : State Outside}

-- A storage is an array, which has fewer slots than `1 <<< 32`.
def Growable (held : Sequence) : Prop :=
  held.capacity ≤ held.length → grownCapacity held.capacity < 1 <<< 32

instance (held : Sequence) : Decidable held.Growable := by
  unfold Growable
  infer_instance

def appendWithin (callbacks : Callbacks Outside) (list : Handle Sequence) (value : Value) :
    Action Outside Unit := do
  requireLive list .append
  if (← state list).Growable then append callbacks list value
  else throw (.excess .length)

theorem growable_of_short (room : held.length ≤ held.capacity)
    (short : held.length + 2 < 1 <<< 31) : held.Growable := by
  intro full
  unfold grownCapacity
  omega

theorem appendWithin_eq (there : before.containers.lists.cell? list = some held)
    (live : held.destroyed = false) (growable : held.Growable) (value : Value) :
    appendWithin callbacks list value before = append callbacks list value before := by
  refine (bind_ok (requireLive_eq there live .append)).trans ((bind_ok (state_eq there)).trans ?_)
  rw [if_pos growable]

-- Lists are built and joined by such appends, one after another.
theorem appendEachWithin_eq (there : before.containers.lists.cell? list = some held)
    (live : held.destroyed = false) (room : held.length ≤ held.capacity) {values : List Value}
    (short : held.length + values.length + 1 < 1 <<< 31) :
    values.forM (appendWithin callbacks list) before = values.forM (append callbacks list) before := by
  induction values generalizing before held with
  | nil => rfl
  | cons value rest ih =>
    rw [List.length_cons] at short
    have growable := growable_of_short room (by omega)
    obtain ⟨_, middle, appended, ⟨_, extended⟩, _⟩ := append_extends callbacks there live value
    have first := (appendWithin_eq there live growable value).trans appended
    obtain ⟨last, grows⟩ := Grows.extend (stage_zero held.capacity).symm room value
    refine (bind_ok first).trans (Eq.trans ?_ (bind_ok appended).symm)
    exact ih extended (extend_live live value) grows.room (by rw [extend_length]; omega)

end Within

structure Settles (held now : Sequence) : Prop where
  room : now.length ≤ now.capacity
  length : now.length ≤ held.length
  live : now.destroyed = false → now.capacity = held.capacity ∧ now.logger = held.logger

namespace Settles

variable {held now after : Sequence}

theorem refl (room : held.length ≤ held.capacity) : held.Settles held :=
  ⟨room, Nat.le_refl _, fun _ => ⟨rfl, rfl⟩⟩

theorem becomes (settles : held.Settles now) (capacity : after.capacity = now.capacity)
    (length : after.length ≤ now.length)
    (same : after.destroyed = now.destroyed ∧ after.logger = now.logger) : held.Settles after where
  room := capacity ▸ Nat.le_trans length settles.room
  length := Nat.le_trans length settles.length
  live alive := by
    rw [capacity, same.2]
    exact settles.live (same.1 ▸ alive)

theorem write (settles : held.Settles now) {slot : Nat} (inside : slot < now.capacity) (value : Value) :
    held.Settles (now.write slot value) := by
  refine settles.becomes ?_ (Nat.le_refl _) ⟨rfl, rfl⟩
  have written : (now.write slot value).capacity = max now.capacity (slot + 1) :=
    now.storage.capacity_write slot value
  omega

theorem shiftOut (settles : held.Settles now) (slot : Nat) : held.Settles (now.shiftOut slot) := by
  refine settles.becomes ?_ (Nat.sub_le _ _) ⟨rfl, rfl⟩
  have room := settles.room
  unfold Sequence.shiftOut Storage.shiftOut Sequence.capacity at *
  rw [Storage.capacity_unassign, Storage.capacity_writeFrom]
  intro index inside
  simp only [Storage.valuesFrom, List.length_map, List.length_range'] at inside
  omega

theorem overwrite (settles : held.Settles now) {values : List Value}
    (fits : values.length ≤ now.capacity) : held.Settles (now.overwrite values) := by
  refine settles.becomes (Storage.capacity_writeFrom fun index inside => ?_) (Nat.le_refl _) ⟨rfl, rfl⟩
  rw [Nat.zero_add]
  exact Nat.lt_of_lt_of_le inside fits

theorem turn (settles : held.Settles now) : held.Settles now.turn := by
  refine settles.becomes ?_ (Nat.le_refl _) ⟨rfl, rfl⟩
  have room := settles.room
  unfold Sequence.turn Storage.turn Sequence.capacity at *
  have first : (now.storage.writeFrom 0 (List.take (now.length / 2)
      (now.storage.valuesFrom 0 now.length).reverse)).capacity = now.storage.capacity := by
    refine Storage.capacity_writeFrom fun index inside => ?_
    simp only [Storage.valuesFrom, List.length_take, List.length_reverse, List.length_map,
      List.length_range'] at inside
    omega
  rw [Storage.capacity_writeFrom, first]
  intro index inside
  rw [first]
  simp only [Storage.valuesFrom, List.length_drop, List.length_reverse, List.length_map,
    List.length_range'] at inside
  omega

theorem release (held now : Sequence) : held.Settles now.release :=
  ⟨Nat.zero_le _, Nat.zero_le _, nofun⟩

end Settles

end Sequence

end Collections
