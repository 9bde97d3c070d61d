import Collections.Proofs.Sequence.Requests
import Collections.Proofs.Sequence.Showing
import Collections.Proofs.Visiting

set_option autoImplicit false

namespace Collections

variable {Outside : Type} {callbacks : Callbacks Outside}

theorem Told.trans {first second third : Outside} (early : Told callbacks first second)
    (late : Told callbacks second third) : Told callbacks first third := by
  induction late with
  | nothing => exact early
  | notice logger notice _ ih => exact .notice logger notice ih

structure State.TouchesOnly (early : State Outside) (list : Handle Sequence) (late : State Outside) :
    Prop where
  others : ∀ other, other ≠ list →
    late.containers.lists.cell? other = early.containers.lists.cell? other
  sets : late.containers.sets = early.containers.sets
  cursors : late.containers.cursors = early.containers.cursors
  traversals : late.containers.traversals = early.containers.traversals

namespace State.TouchesOnly

variable {first second third : State Outside} {list : Handle Sequence}

theorem of_containers_eq (touches : first.TouchesOnly list second)
    (same : third.containers = second.containers) : first.TouchesOnly list third where
  others := same ▸ touches.others
  sets := same ▸ touches.sets
  cursors := same ▸ touches.cursors
  traversals := same ▸ touches.traversals

theorem trans (early : first.TouchesOnly list second) (late : second.TouchesOnly list third) :
    first.TouchesOnly list third where
  others other differ := (late.others other differ).trans (early.others other differ)
  sets := late.sets.trans early.sets
  cursors := late.cursors.trans early.cursors
  traversals := late.traversals.trans early.traversals

end State.TouchesOnly

namespace State.ChangesOnly

variable {first second third : State Outside} {list other : Handle Sequence}

theorem refl (state : State Outside) : state.ChangesOnly callbacks list state where
  others _ _ := rfl
  sets := rfl
  cursors := rfl
  traversals := rfl
  ordinals := rfl
  told := .nothing

theorem trans (early : first.ChangesOnly callbacks list second)
    (late : second.ChangesOnly callbacks list third) : first.ChangesOnly callbacks list third where
  others other differ := (late.others other differ).trans (early.others other differ)
  sets := late.sets.trans early.sets
  cursors := late.cursors.trans early.cursors
  traversals := late.traversals.trans early.traversals
  ordinals := late.ordinals.trans early.ordinals
  told := early.told.trans late.told

theorem get_eq (changes : first.ChangesOnly callbacks list second) (differ : other ≠ list) :
    second.containers.lists.get other = first.containers.lists.get other :=
  Table.get_congr (changes.others other differ)

theorem flatMap_elements (changes : first.ChangesOnly callbacks list second)
    (sources : List (Handle Sequence)) (differ : ∀ source ∈ sources, source ≠ list) :
    sources.flatMap (fun source => (second.containers.lists.get source).elements) =
      sources.flatMap fun source => (first.containers.lists.get source).elements :=
  congrArg List.flatten <| List.map_congr_left fun source member => by
    rw [changes.get_eq (differ source member)]

theorem touchesOnly (changes : first.ChangesOnly callbacks list second) : first.TouchesOnly list second :=
  ⟨changes.others, changes.sets, changes.cursors, changes.traversals⟩

end State.ChangesOnly

namespace Sequence

variable {list source : Handle Sequence} {held : Sequence} {values : List Value}
  {before : State Outside}

theorem Showing.get_shows (showing : Showing list values before) :
    (before.containers.lists.get list).Shows values := by
  obtain ⟨held, there, shows⟩ := showing
  rwa [Table.get_of_cell? there]

theorem Showing.state_eq (showing : Showing list values before) :
    ∃ held, held.Shows values ∧ before.containers.lists.cell? list = some held ∧
      state list before = .ok held before := by
  obtain ⟨held, there, shows⟩ := showing
  exact ⟨held, shows, there, Sequence.state_eq there⟩

theorem Showing.requireLive_eq (showing : Showing list values before) (operation : ListOperation) :
    requireLive list operation before = .ok () before := by
  obtain ⟨held, there, shows⟩ := showing
  exact Sequence.requireLive_eq there shows.live operation

section Changing

variable (callbacks)

theorem change_changes (there : before.containers.lists.cell? list = some held)
    (step : Sequence → Sequence) :
    Succeeds (change list step) before fun _ after => before.ChangesOnly callbacks list after ∧
      after.containers.lists.cell? list = some (step held) := by
  refine ⟨(), _, rfl, ⟨fun other differ => ?_, rfl, rfl, rfl, rfl, .nothing⟩, ?_⟩
  · dsimp only
    rw [Table.cell?_modify, if_neg differ]
  · dsimp only
    rw [Table.cell?_modify, if_pos rfl, there]
    rfl

theorem add_adds (held : Sequence) (before : State Outside) :
    Succeeds (add held) before fun made after => before.ChangesOnly callbacks made after ∧
      made = ⟨before.containers.lists.cells.size⟩ ∧
        after.containers.lists.cell? made = some held := by
  refine ⟨_, _, rfl, ⟨fun other differ => ?_, rfl, rfl, rfl, rfl, .nothing⟩, rfl, ?_⟩
  · dsimp only
    exact (Table.cell?_add _ held other).trans (if_neg differ)
  · dsimp only
    exact Table.cell?_added _ held

end Changing

theorem notify_notifies (there : before.containers.lists.cell? list = some held)
    (notice : Notice) :
    Succeeds (notify callbacks list notice) before fun _ after =>
      before.ChangesOnly callbacks list after ∧ after.containers = before.containers := by
  apply Succeeds.bind_eq (state_eq there)
  cases held.logger with
  | none => exact Succeeds.of_pure ⟨.refl before, rfl⟩
  | some logger =>
    exact ⟨(), _, rfl, ⟨fun _ _ => rfl, rfl, rfl, rfl, rfl, .notice logger notice .nothing⟩, rfl⟩

theorem readSlot_eq (showing : Showing list values before) {slot : Nat} {element : Value}
    (inside : values[slot]? = some element) : readSlot list slot before = .ok element before := by
  have shows := showing.get_shows
  obtain ⟨below, rfl⟩ := List.getElem?_eq_some_iff.1 inside
  rw [← shows.lays.read_eq below]
  rfl

theorem requireSlot_tells (showing : Showing list values before) (index : Value) :
    (∃ (position : Nat) (element : Value), index.Names position ∧ values[position]? = some element ∧
      requireSlot list index before = .ok position before) ∨
    (∀ position : Nat, index.Names position → values.length ≤ position) ∧ ∃ length : Number,
      length.same (.ofNat values.length) ∧
        requireSlot list index before = .error (.list (.indexOutOfRange index length)) before := by
  obtain ⟨held, shows, _, read⟩ := showing.state_eq
  cases found : held.slot? index with
  | some position =>
    obtain ⟨names, inside⟩ := (shows.slot?_eq_some index).1 found
    refine .inl ⟨position, values[position], names, List.getElem?_eq_getElem inside, ?_⟩
    apply (bind_ok read).trans
    rw [found]
    rfl
  | none =>
    refine .inr ⟨fun position names => Nat.le_of_not_lt fun inside => ?_, _,
      shows.reportedLength_same, ?_⟩
    · rw [(shows.slot?_eq_some index).2 ⟨names, inside⟩] at found
      exact Option.some_ne_none position found
    · apply (bind_ok read).trans
      rw [found]
      rfl

section Appending

variable (callbacks)

theorem append_appends (showing : Showing list values before) (value : Value) :
    Succeeds (append callbacks list value) before fun _ after =>
      before.ChangesOnly callbacks list after ∧ Showing list (values ++ [value]) after := by
  obtain ⟨held, shows, there, read⟩ := showing.state_eq
  apply Succeeds.bind_eq (showing.requireLive_eq .append)
  apply Succeeds.bind_eq read
  have pushing {room : Sequence} {ready : State Outside} (shows : room.Shows values)
      (changes : before.ChangesOnly callbacks list ready)
      (there : ready.containers.lists.cell? list = some room)
      (fits : values.length < room.storage.slots.size) :
      Succeeds (change list (·.push value)) ready fun _ after =>
        before.ChangesOnly callbacks list after ∧ Showing list (values ++ [value]) after :=
    (change_changes callbacks there _).imp fun _ _ pushed =>
      ⟨changes.trans pushed.1, _, pushed.2, shows.push fits value⟩
  split
  next full =>
    refine (change_changes callbacks there grown).bind fun _ grew ⟨changes, there⟩ => ?_
    refine (notify_notifies there _).bind fun _ ready ⟨tells, same⟩ => ?_
    exact pushing shows.grown (changes.trans tells) (same ▸ there) shows.grown_room
  next room =>
    apply pushing shows (.refl before) there
    rw [← shows.lays.capacity_eq, ← shows.length_eq]
    exact Nat.lt_of_not_le room

theorem appendEach_appends (showing : Showing list values before) (added : List Value) :
    Succeeds (added.forM (append callbacks list)) before fun _ after =>
      before.ChangesOnly callbacks list after ∧ Showing list (values ++ added) after := by
  induction added generalizing before values with
  | nil => exact Succeeds.of_pure ⟨.refl before, (List.append_nil values).symm ▸ showing⟩
  | cons value rest ih =>
    refine (append_appends callbacks showing value).bind fun _ middle ⟨early, showing⟩ => ?_
    refine (ih showing).imp fun _ after ⟨late, showing⟩ => ⟨early.trans late, ?_⟩
    rwa [List.append_cons]

theorem appendAll_appends (showing : Showing list values before) (differ : source ≠ list) :
    Succeeds (appendAll callbacks list source) before fun _ after =>
      before.ChangesOnly callbacks list after ∧
        Showing list (values ++ (before.containers.lists.get source).elements) after := by
  obtain ⟨held, shows, there, read⟩ := showing.state_eq
  apply Succeeds.bind_eq (showing.requireLive_eq .appendAll)
  rw [if_neg differ]
  exact appendEach_appends callbacks showing _

theorem appendLists_appends (showing : Showing list values before) (sources : List (Handle Sequence))
    (differ : ∀ source ∈ sources, source ≠ list) :
    Succeeds (sources.forM (appendAll callbacks list)) before fun _ after =>
      before.ChangesOnly callbacks list after ∧
        Showing list (values ++ sources.flatMap fun source =>
          (before.containers.lists.get source).elements) after := by
  induction sources generalizing before values with
  | nil => exact Succeeds.of_pure ⟨.refl before, by simpa using showing⟩
  | cons source rest ih =>
    have here := differ source List.mem_cons_self
    have later (other : Handle Sequence) (member : other ∈ rest) : other ≠ list :=
      differ other (List.mem_cons_of_mem source member)
    refine (appendAll_appends callbacks showing here).bind fun _ middle ⟨early, showing⟩ => ?_
    refine (ih showing later).imp fun _ after ⟨late, showing⟩ => ⟨early.trans late, ?_⟩
    rw [List.flatMap_cons, ← List.append_assoc, ← early.flatMap_elements rest later]
    exact showing

end Appending

section Editing

variable (callbacks)

theorem changeElements_shows {shown : List Value} (showing : Showing list values before)
    (step : Sequence → Sequence) (changes : ∀ held : Sequence, held.Shows values →
      (step held).Shows shown) :
    Succeeds (change list step) before fun _ after =>
      before.ChangesOnly callbacks list after ∧ Showing list shown after := by
  obtain ⟨held, there, shows⟩ := showing
  exact (change_changes callbacks there step).imp fun _ _ changed =>
    ⟨changed.1, _, changed.2, changes held shows⟩

theorem takeOut_takes (showing : Showing list values before) {slot : Nat} {element : Value}
    (inside : values[slot]? = some element) :
    Succeeds (takeOut list slot) before fun taken after => taken = element ∧
      before.ChangesOnly callbacks list after ∧ Showing list (values.eraseIdx slot) after := by
  have below := (List.getElem?_eq_some_iff.1 inside).1
  apply Succeeds.bind_eq (readSlot_eq showing inside)
  refine (changeElements_shows callbacks showing (·.shiftOut slot)
    fun _ shows => shows.shiftOut below).bind fun _ after changed => ?_
  exact Succeeds.of_pure ⟨rfl, changed⟩

end Editing

section Making

variable (callbacks)

def Makes (before : State Outside) (values : List Value) (made : Handle Sequence)
    (after : State Outside) : Prop :=
  made = ⟨before.containers.lists.cells.size⟩ ∧ before.ChangesOnly callbacks made after ∧
    Showing made values after

theorem add_makes (shows : held.Shows values) (before : State Outside) :
    Succeeds (add held) before (Makes callbacks before values) :=
  (add_adds callbacks held before).imp fun _ _ ⟨adds, fresh, there⟩ =>
    ⟨fresh, adds, held, there, shows⟩

theorem Showing.ne_fresh (showing : Showing list values before) :
    list ≠ ⟨before.containers.lists.cells.size⟩ := by
  rintro rfl
  obtain ⟨held, there, _⟩ := showing
  simp [Table.cell?] at there

theorem ofValues_makes (values : List Value) (options : ListOptions) (before : State Outside) :
    Succeeds (ofValues callbacks values options) before (Makes callbacks before values) := by
  refine (add_makes callbacks (.create options) before).bind fun made middle made => ?_
  obtain ⟨fresh, adds, showing⟩ := made
  refine (appendEach_appends callbacks showing values).bind fun _ after ⟨appends, showing⟩ => ?_
  exact Succeeds.of_pure ⟨fresh, adds.trans appends, showing⟩

theorem join_makes (lists : List (Option (Handle Sequence))) (options : ListOptions)
    (there : ∀ list, some list ∈ lists → before.containers.lists.cell? list ≠ none) :
    Succeeds (join callbacks lists options) before (Makes callbacks before
      ((lists.filterMap id).flatMap fun list => (before.containers.lists.get list).elements)) := by
  refine (add_makes callbacks (.create options) before).bind fun made middle made => ?_
  obtain ⟨rfl, adds, showing⟩ := made
  -- A list that was there before is not the one that is being made.
  have differ (source : Handle Sequence) (member : source ∈ lists.filterMap id) :
      source ≠ ⟨before.containers.lists.cells.size⟩ := by
    rintro rfl
    have absent : before.containers.lists.cell? ⟨before.containers.lists.cells.size⟩ = none := by
      simp [Table.cell?]
    exact there _ (by simpa using member) absent
  refine (appendLists_appends callbacks showing _ differ).bind fun _ after appended => ?_
  obtain ⟨appends, showing⟩ := appended
  refine Succeeds.of_pure ⟨rfl, adds.trans appends, ?_⟩
  rwa [adds.flatMap_elements _ differ, List.nil_append] at showing

theorem copy_makes (showing : Showing list values before) (destructor : Option String) :
    Succeeds (copy callbacks list destructor) before (Makes callbacks before values) := by
  obtain ⟨held, shows, there, read⟩ := showing.state_eq
  have differ := showing.ne_fresh
  apply Succeeds.bind_eq (showing.requireLive_eq .copy)
  apply Succeeds.bind_eq read
  refine (add_makes callbacks (.create _) before).bind fun made middle made => ?_
  obtain ⟨rfl, adds, copied⟩ := made
  refine (appendAll_appends callbacks copied differ).bind fun _ after ⟨appends, copied⟩ => ?_
  refine Succeeds.of_pure ⟨rfl, adds.trans appends, ?_⟩
  rwa [adds.get_eq differ, showing.get_shows.elements_eq, List.nil_append] at copied

end Making

section Filtering

variable (callbacks) (test : Value → Action Outside Bool)

def Filtering (list made : Handle Sequence) (before : State Outside) (values : List Value)
    (position : Nat) (state : State Outside) : Prop :=
  ∃ kept early, Sifts callbacks made test before (values.take position) kept early ∧
    early.ChangesOnly callbacks made state ∧ Showing made kept state ∧
      Showing list values state ∧ ∀ other, other ≠ made →
        state.containers.lists.cell? other = before.containers.lists.cell? other

variable {callbacks test}

-- What the test finds ready is asked of one element after the other. What it has judged so far, and let
-- through, is ready for the next; so are the appends to the new list in between.
theorem filter_judges (ready : List Value → List Value → State Outside → Prop)
    (judges : ∀ passed kept value early, ready passed kept early →
      Succeeds (test value) early fun verdict late => late.containers = early.containers ∧
        ready (passed ++ [value]) (kept ++ if verdict then [value] else []) late)
    (stays : ∀ passed kept early late, ready passed kept early →
      early.ChangesOnly callbacks ⟨before.containers.lists.cells.size⟩ late → ready passed kept late)
    (there : before.containers.lists.cell? list = some held) (live : held.destroyed = false)
    (start : ready [] [] before) :
    Succeeds (filter callbacks list test) before fun made after =>
      made = ⟨before.containers.lists.cells.size⟩ ∧ before.TouchesOnly made after ∧
        ∃ kept, ready held.elements kept after ∧ Showing made kept after := by
  have differ : list ≠ ⟨before.containers.lists.cells.size⟩ := by
    rintro rfl
    simp [Table.cell?] at there
  apply Succeeds.bind_eq (requireLive_eq there live .filter)
  apply Succeeds.bind_eq (state_eq there)
  refine (add_makes callbacks (.create _) before).bind fun made middle made => ?_
  obtain ⟨rfl, adds, filtered⟩ := made
  let made : Handle Sequence := ⟨before.containers.lists.cells.size⟩
  let reached (position : Nat) (state : State Outside) := before.TouchesOnly made state ∧
    ∃ kept, ready (held.elements.take position) kept state ∧ Showing made kept state
  have found {state : State Outside} (touches : before.TouchesOnly made state) :
      state.containers.lists.cell? list = some held := (touches.others list differ).trans there
  -- The length is read anew at every step; appending to the new list does not change it.
  have steady (position : Nat) (state : State Outside) (told : reached position state) :
      (return (← Sequence.state list).length : Action Outside Nat) state = .ok held.length state :=
    bind_ok (state_eq (found told.1))
  have visits (position : Nat) (state : State Outside) (inside : position < held.length)
      (told : reached position state) : Ends (do
        let value ← readSlot list position
        if ← test value then append callbacks made value) state (fun _ => reached (position + 1))
          fun _ _ => False := by
    obtain ⟨touches, kept, more, filtered⟩ := told
    have read : readSlot list position state = .ok (held.storage.read position) state := by
      change EStateM.Result.ok ((state.containers.lists.get list).storage.read position) state = _
      rw [Table.get_of_cell? (found touches)]
    apply Ends.bind_eq read
    refine Succeeds.ends ((judges _ kept _ state more).bind fun verdict late told => ?_)
    obtain ⟨same, more⟩ := told
    have next : held.elements.take (position + 1) =
        held.elements.take position ++ [held.storage.read position] := by
      simp [elements, Storage.valuesFrom, List.take_add_one, inside]
    rw [← next] at more
    have filtered : Showing made kept late := by
      unfold Showing
      rwa [same]
    have touches := touches.of_containers_eq same
    cases verdict with
    | false => exact Succeeds.of_pure ⟨touches, kept, by simpa using more, filtered⟩
    | true =>
      refine (append_appends callbacks filtered _).imp fun _ after told => ?_
      obtain ⟨appends, filtered⟩ := told
      exact ⟨touches.trans appends.touchesOnly, _, stays _ _ late after more appends, filtered⟩
  have start : reached 0 middle := ⟨adds.touchesOnly, [], stays [] [] before middle start adds, filtered⟩
  refine (Ends.succeeds (visitAll_ends callbacks steady visits middle start)).bind fun _ after told => ?_
  obtain ⟨touches, kept, more, filtered⟩ := told
  have whole : held.elements.take held.length = held.elements :=
    List.take_of_length_le (by simp [elements, Storage.valuesFrom])
  exact Succeeds.of_pure ⟨rfl, touches, kept, whole ▸ more, filtered⟩

theorem filter_filters (showing : Showing list values before)
    (quiet : ∀ value state, Succeeds (test value) state fun _ after =>
      after.containers = state.containers) :
    Succeeds (filter callbacks list test) before fun made after =>
      made = ⟨before.containers.lists.cells.size⟩ ∧
        Filtering callbacks test list made before values values.length after := by
  have differ := showing.ne_fresh
  obtain ⟨held, there, shows⟩ := showing
  let ready (passed kept : List Value) (state : State Outside) := ∃ early,
    Sifts callbacks ⟨before.containers.lists.cells.size⟩ test before passed kept early ∧
      early.ChangesOnly callbacks ⟨before.containers.lists.cells.size⟩ state
  refine (filter_judges ready ?_ ?_ there shows.live ⟨before, .start, .refl before⟩).imp ?_
  · rintro passed kept value state ⟨early, sifts, changes⟩
    obtain ⟨verdict, late, judged, same⟩ := quiet value state
    exact ⟨verdict, late, judged, same, late, sifts.judged changes judged, .refl late⟩
  · rintro passed kept state late ⟨early, sifts, changes⟩ more
    exact ⟨early, sifts, changes.trans more⟩
  · rintro made after ⟨rfl, touches, kept, ⟨early, sifts, changes⟩, filtered⟩
    rw [shows.elements_eq] at sifts
    refine ⟨rfl, kept, early, by rwa [List.take_length], changes, filtered, ?_, touches.others⟩
    exact ⟨held, (touches.others list differ).trans there, shows⟩

end Filtering

section Destroying

theorem destructFrom_quiet (quiet : callbacks.QuietDestructors) (list : Handle Sequence)
    (destructor : String) (remaining slot : Nat) (before : State Outside) :
    Succeeds (destructFrom callbacks list destructor slot remaining) before fun _ after =>
      after.containers = before.containers := by
  induction remaining generalizing slot before with
  | zero => exact Succeeds.of_pure rfl
  | succ remaining ih =>
    have read : readSlot list slot before =
        .ok ((before.containers.lists.get list).storage.read slot) before := rfl
    apply Succeeds.bind_eq read
    split
    next =>
      refine (quiet destructor _ before).bind fun _ middle same => ?_
      exact (ih (slot + 1) middle).imp fun _ _ later => later.trans same
    next => exact ih (slot + 1) before

theorem destroy_releases (quiet : callbacks.QuietDestructors) (showing : Showing list values before) :
    Succeeds (destroy callbacks list) before fun _ after =>
      (∀ other, other ≠ list →
        after.containers.lists.cell? other = before.containers.lists.cell? other) ∧
      ∃ held, after.containers.lists.cell? list = some held ∧ held.destroyed ∧ held.length = 0 := by
  obtain ⟨held, shows, there, read⟩ := showing.state_eq
  apply Succeeds.bind_eq (showing.requireLive_eq .destroy)
  apply Succeeds.bind_eq read
  -- With or without destructors, the list is released in a state with the same containers.
  have releasing {middle : State Outside} (same : middle.containers = before.containers)
      (notice : Notice) : Succeeds (do
        change list release
        notify callbacks list notice) middle fun _ after =>
      (∀ other, other ≠ list →
        after.containers.lists.cell? other = before.containers.lists.cell? other) ∧
      ∃ held, after.containers.lists.cell? list = some held ∧ held.destroyed ∧ held.length = 0 := by
    rw [← same] at there ⊢
    refine (change_changes callbacks there release).bind fun _ freed ⟨changes, there⟩ => ?_
    refine (notify_notifies there notice).imp fun _ after ⟨_, same⟩ => ?_
    rw [same]
    exact ⟨changes.others, _, there, rfl, rfl⟩
  split
  next destructor _ =>
    refine (destructFrom_quiet quiet list destructor held.length 0 before).bind ?_
    exact fun _ middle same => releasing same _
  next => exact releasing rfl _

end Destroying

end Sequence

end Collections
