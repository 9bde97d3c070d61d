import Collections.Proofs.Runs.Soundness

set_option autoImplicit false

namespace Collections

variable {Outside : Type} {list : Handle Sequence} {cursor : Handle Cursor} {held : Cursor}

namespace Containers

def elementsOf (moment : Containers) (list : Handle Sequence) : List Value :=
  (moment.lists.get list).elements

theorem length_elementsOf (moment : Containers) (list : Handle Sequence) :
    (moment.elementsOf list).length = (moment.lists.get list).length := by
  simp [elementsOf, Sequence.elements, Storage.valuesFrom]

theorem Steady.get {moment : Containers} (steady : moment.Steady) (list : Handle Sequence) :
    (moment.lists.get list).Steady := by
  cases there : moment.lists.cell? list with
  | none => exact Table.get_of_cell?_eq_none there ▸ .absent
  | some held => exact Table.get_of_cell? there ▸ steady list held there

end Containers

namespace State

def moved (state : State Outside) (cursor : Handle Cursor) (index : Nat) : State Outside :=
  state.withCursors (state.containers.cursors.modify cursor ({ · with index }))

structure ChangesCursor (early : State Outside) (cursor : Handle Cursor) (late : State Outside) :
    Prop where
  others : ∀ other, other ≠ cursor →
    late.containers.cursors.cell? other = early.containers.cursors.cell? other
  rest : late = early.withCursors late.containers.cursors

variable {state : State Outside}

theorem changesCursor (state : State Outside) (cursor : Handle Cursor) (step : Cursor → Cursor) :
    state.ChangesCursor cursor
      (state.withCursors (state.containers.cursors.modify cursor step)) where
  others other differ := by
    dsimp only
    rw [Table.cell?_modify, if_neg differ]
  rest := rfl

theorem moved_changes (state : State Outside) (cursor : Handle Cursor) (index : Nat) :
    state.ChangesCursor cursor (state.moved cursor index) := state.changesCursor cursor _

theorem moved_there (there : state.containers.cursors.cell? cursor = some held) (index : Nat) :
    (state.moved cursor index).containers.cursors.cell? cursor = some { held with index } := by
  dsimp only [moved]
  rw [Table.cell?_modify, if_pos rfl, there]
  rfl

theorem moved_steady (steady : state.containers.Steady) (cursor : Handle Cursor) (index : Nat) :
    (state.moved cursor index).containers.Steady := steady

theorem moved_moved (state : State Outside) (cursor : Handle Cursor) (first second : Nat) :
    (state.moved cursor first).moved cursor second = state.moved cursor second :=
  congrArg state.withCursors (Table.modify_modify _ _ _ _)

theorem moved_self (there : state.containers.cursors.cell? cursor = some held) :
    state.moved cursor held.index = state :=
  congrArg state.withCursors (Table.modify_self there rfl)

end State

namespace Containers

def refusal (moment : Containers) (list : Handle Sequence) (index : Nat) : Failure :=
  let held := moment.lists.get list
  if held.destroyed then .list (.destroyed .get)
  else .list (.indexOutOfRange (.number (.ofNat index)) held.reportedLength)

def access (moment : Containers) (list : Handle Sequence) (index : Nat) : Except Failure Value :=
  match (moment.elementsOf list)[index]? with
  | some element => .ok element
  | none => .error (moment.refusal list index)

end Containers

namespace Containers

variable {moment : Containers} {index : Nat} {element : Value}

theorem access_found (found : (moment.elementsOf list)[index]? = some element) :
    moment.access list index = .ok element := by
  simp [access, found]

theorem access_outside (outside : (moment.elementsOf list).length ≤ index) :
    moment.access list index = .error (moment.refusal list index) := by
  simp [access, List.getElem?_eq_none outside]

theorem refusal_destroyed (destroyed : (moment.lists.get list).destroyed = true) (index : Nat) :
    moment.refusal list index = .list (.destroyed .get) := if_pos destroyed

theorem refusal_live (live : (moment.lists.get list).destroyed = false) (index : Nat) :
    moment.refusal list index = .list (.indexOutOfRange (.number (.ofNat index))
      (moment.lists.get list).reportedLength) := by
  simp [refusal, live]

theorem Steady.elements_eq_nil (steady : moment.Steady)
    (destroyed : (moment.lists.get list).destroyed = true) : moment.elementsOf list = [] := by
  rw [← List.length_eq_zero_iff, length_elementsOf]
  exact ((steady.get list).released destroyed).1

end Containers

namespace Cursor

theorem elementAt_eq {state : State Outside} (steady : state.containers.Steady) (list : Handle Sequence)
    (index : Nat) : elementAt list index state = resultOf (state.containers.access list index) state := by
  have checked : (Sequence.requireLive list .get : Action Outside Unit) state =
      (if (state.containers.lists.get list).destroyed then
        throw (.list (.destroyed .get)) else pure () : Action Outside Unit) state := rfl
  by_cases destroyed : (state.containers.lists.get list).destroyed = true
  next =>
    rw [if_pos destroyed] at checked
    have empty := steady.elements_eq_nil destroyed
    rw [Containers.access_outside (by simp [empty]), Containers.refusal_destroyed destroyed]
    exact bind_error checked
  next =>
    rw [if_neg destroyed] at checked
    refine (bind_ok checked).trans ?_
    change (if index < (state.containers.lists.get list).length then
      pure ((state.containers.lists.get list).storage.read index) else
        throw _ : Action Outside Value) state = _
    by_cases inside : index < (state.containers.lists.get list).length
    next =>
      have found : (state.containers.elementsOf list)[index]? =
          some ((state.containers.lists.get list).storage.read index) := by
        simp [Containers.elementsOf, Sequence.elements, Storage.valuesFrom, inside]
      rw [if_pos inside, Containers.access_found found]
      rfl
    next =>
      have outside : (state.containers.elementsOf list).length ≤ index := by
        simpa [Containers.length_elementsOf] using inside
      rw [if_neg inside, Containers.access_outside outside,
        Containers.refusal_live (by simpa using destroyed)]
      rfl

section Steps

variable {state : State Outside} (there : state.containers.cursors.cell? cursor = some held)

include there

theorem state_eq : Cursor.state cursor state = .ok held state := by
  rw [← Table.get_of_cell? there]
  rfl

theorem next_detached (detached : held.target = .detached) : next cursor state = .ok none state := by
  apply (bind_ok (state_eq there)).trans
  rw [detached]
  rfl

theorem previous_stays (stays : held.target = .detached ∨ held.index = 0) :
    previous cursor state = .ok none state := by
  apply (bind_ok (state_eq there)).trans
  rcases stays with detached | start
  · rw [detached]
    rfl
  · rw [start]
    cases held.target <;> rfl

variable (attached : held.target = .list list)

include attached

theorem next_stays (ends : (state.containers.elementsOf list).length ≤ held.index) :
    next cursor state = .ok none state := by
  rw [Containers.length_elementsOf] at ends
  apply (bind_ok (state_eq there)).trans
  rw [attached]
  change (if (state.containers.lists.get list).length ≤ held.index then pure none else _ :
    Action Outside (Option Value)) state = _
  rw [if_pos ends]
  rfl

theorem next_moves (steady : state.containers.Steady) {element : Value}
    (found : (state.containers.elementsOf list)[held.index]? = some element) :
    next cursor state = .ok (some element) (state.moved cursor (held.index + 1)) := by
  have inside : held.index < (state.containers.lists.get list).length := by
    rw [← Containers.length_elementsOf]
    exact (List.getElem?_eq_some_iff.1 found).1
  apply (bind_ok (state_eq there)).trans
  rw [attached]
  change (if (state.containers.lists.get list).length ≤ held.index then pure none else _ :
    Action Outside (Option Value)) state = _
  rw [if_neg (by omega)]
  have unmoved := State.moved_steady steady cursor (held.index + 1)
  have read := elementAt_eq unmoved list held.index
  have granted := Containers.access_found found
  refine (bind_ok rfl).trans (bind_ok (read.trans ?_))
  exact congrArg (resultOf · _) granted

-- A step back moves the cursor first, and only then finds out whether the element is there.
theorem previous_steps (steady : state.containers.Steady) {index : Nat} (behind : held.index = index + 1) :
    attempt (previous cursor) state =
      ((state.containers.access list index).map some, state.moved cursor index) := by
  have found := state_eq there
  have unmoved := State.moved_steady steady cursor index
  have read : elementAt list index (state.moved cursor index) =
      resultOf (state.containers.access list index) (state.moved cursor index) :=
    elementAt_eq unmoved list index
  obtain ⟨target, position⟩ := held
  obtain rfl : target = .list list := attached
  obtain rfl : position = index + 1 := behind
  cases outcome : state.containers.access list index with
  | ok element =>
    rw [outcome] at read
    have answered : previous cursor state = .ok (some element) (state.moved cursor index) :=
      (bind_ok found).trans ((bind_ok rfl).trans (bind_ok read))
    simp only [attempt, answered, Except.map]
  | error failure =>
    rw [outcome] at read
    have broke : previous cursor state = .error failure (state.moved cursor index) :=
      (bind_ok found).trans ((bind_ok rfl).trans (bind_error read))
    simp only [attempt, broke, Except.map]

end Steps

structure Obeys (held : Cursor) (surroundings : Surroundings Outside) (cursor : Handle Cursor)
    (state : State Outside) : Prop where
  next_moves : ∀ list element, held.target = .list list →
    (state.containers.elementsOf list)[held.index]? = some element →
      perform surroundings (.next cursor) state =
        .ok (.step (some element)) (state.moved cursor (held.index + 1))
  next_stays : (∀ list, held.target = .list list →
      (state.containers.elementsOf list).length ≤ held.index) →
    perform surroundings (.next cursor) state = .ok (.step none) state
  previous_moves : ∀ list index element, held.target = .list list → held.index = index + 1 →
    (state.containers.elementsOf list)[index]? = some element →
      perform surroundings (.previous cursor) state =
        .ok (.step (some element)) (state.moved cursor index)
  previous_stays : held.target = .detached ∨ held.index = 0 →
    perform surroundings (.previous cursor) state = .ok (.step none) state
  previous_destroyed : ∀ list, held.target = .list list → 0 < held.index →
    (state.containers.lists.get list).destroyed = true →
      ∃ after, state.ChangesCursor cursor after ∧
        perform surroundings (.previous cursor) state = .error (.list (.destroyed .get)) after
  previous_outside : ∀ list index, held.target = .list list → held.index = index + 1 →
    (state.containers.lists.get list).destroyed = false →
      (state.containers.elementsOf list).length ≤ index →
        ∃ after, state.ChangesCursor cursor after ∧
          perform surroundings (.previous cursor) state =
            .error (.list (.indexOutOfRange (.number (.ofNat index))
              (state.containers.lists.get list).reportedLength)) after
  restores : ∀ element after, perform surroundings (.next cursor) state =
      .ok (.step (some element)) after →
    perform surroundings (.previous cursor) after = .ok (.step (some element)) state
  copies : Succeeds (perform surroundings (.copyCursor cursor)) state fun answer after =>
    ∃ copied, answer = .cursor copied ∧ state.containers.cursors.cell? copied = none ∧
      after.containers.cursors.cell? copied = some held ∧ state.ChangesCursor copied after
  detaches : Succeeds (perform surroundings (.detach cursor)) state fun _ after =>
    after.containers.cursors.cell? cursor = some { held with target := .detached } ∧
      state.ChangesCursor cursor after

theorem Obeys.next_succeeds {surroundings : Surroundings Outside} {state : State Outside}
    (obeys : held.Obeys surroundings cursor state) :
    Succeeds (perform surroundings (.next cursor)) state fun _ _ => True := by
  by_cases ahead : ∃ list element, held.target = .list list ∧
      (state.containers.elementsOf list)[held.index]? = some element
  next =>
    obtain ⟨list, element, attached, found⟩ := ahead
    exact ⟨_, _, obeys.next_moves list element attached found, trivial⟩
  next =>
    refine ⟨_, _, obeys.next_stays fun list attached => Nat.le_of_not_lt fun inside => ?_, trivial⟩
    exact ahead ⟨list, _, attached, List.getElem?_eq_getElem inside⟩

theorem Obeys.refused {surroundings : Surroundings Outside} {state after : State Outside}
    (obeys : held.Obeys surroundings cursor state) (defined : held.target ≠ .undefined)
    {failure : Failure}
    (failed : perform surroundings (.previous cursor) state = .error failure after) :
    ∃ list index, held.target = .list list ∧ held.index = index + 1 ∧
      (state.containers.elementsOf list).length ≤ index := by
  have moves : ¬(held.target = .detached ∨ held.index = 0) := fun stays => by
    cases (obeys.previous_stays stays).symm.trans failed
  obtain ⟨index, behind⟩ := Nat.exists_eq_add_one_of_ne_zero fun start => moves (.inr start)
  cases target : held.target with
  | list list =>
    refine ⟨list, index, rfl, behind, Nat.le_of_not_lt fun inside => ?_⟩
    have answers := obeys.previous_moves list index _ target behind (List.getElem?_eq_getElem inside)
    cases answers.symm.trans failed
  | detached => exact (moves (.inl target)).elim
  | undefined => exact (defined target).elim

section Obeying

variable (surroundings : Surroundings Outside) {state : State Outside}
  (there : state.containers.cursors.cell? cursor = some held) (steady : state.containers.Steady)

include there

theorem copy_copies :
    Succeeds (perform surroundings (.copyCursor cursor)) state fun answer after =>
      ∃ copied, answer = .cursor copied ∧ state.containers.cursors.cell? copied = none ∧
        after.containers.cursors.cell? copied = some held ∧ state.ChangesCursor copied after := by
  refine Succeeds.bind_eq (bind_ok (state_eq there)) (Succeeds.of_pure ⟨_, rfl, ?_, ?_, ?_, rfl⟩)
  · exact Table.cell?_fresh state.containers.cursors held
  · exact Table.cell?_added _ _
  · exact fun other differ => (Table.cell?_add _ _ _).trans (if_neg differ)

theorem detach_detaches :
    Succeeds (perform surroundings (.detach cursor)) state fun _ after =>
      after.containers.cursors.cell? cursor = some { held with target := .detached } ∧
        state.ChangesCursor cursor after := by
  refine Succeeds.bind_eq rfl (Succeeds.of_pure ⟨?_, state.changesCursor cursor _⟩)
  dsimp only
  rw [Table.cell?_modify, if_pos rfl, there]
  rfl

include steady

theorem attempt_previous (attached : held.target = .list list) {index : Nat}
    (behind : held.index = index + 1) :
    attempt (perform surroundings (.previous cursor)) state =
      ((state.containers.access list index).map (.step ∘ some), state.moved cursor index) := by
  refine (attempt_map Operation.Answer.step).trans ?_
  rw [previous_steps there attached steady behind]
  cases state.containers.access list index <;> rfl

theorem previous_answers (attached : held.target = .list list) {index : Nat}
    (behind : held.index = index + 1) {element : Value}
    (found : (state.containers.elementsOf list)[index]? = some element) :
    perform surroundings (.previous cursor) state =
      .ok (.step (some element)) (state.moved cursor index) := by
  have attempted := attempt_previous surroundings there steady attached behind
  rw [Containers.access_found found] at attempted
  have answered := eq_ok_of_attempt (congrArg (·.1.toOption) attempted)
  rwa [attempted] at answered

theorem previous_fails (attached : held.target = .list list) {index : Nat}
    (behind : held.index = index + 1)
    (outside : (state.containers.elementsOf list).length ≤ index) :
    perform surroundings (.previous cursor) state =
      .error (state.containers.refusal list index) (state.moved cursor index) := by
  have attempted := attempt_previous surroundings there steady attached behind
  rw [Containers.access_outside outside] at attempted
  exact eq_error_of_attempt attempted

theorem next_found (defined : held.target ≠ .undefined) {element : Value} {after : State Outside}
    (moves : perform surroundings (.next cursor) state = .ok (.step (some element)) after) :
    ∃ list, held.target = .list list ∧ (state.containers.elementsOf list)[held.index]? = some element ∧
      after = state.moved cursor (held.index + 1) := by
  have stays (unmoved : next cursor state = .ok none state) : False := by
    have answered : perform surroundings (.next cursor) state = .ok (.step none) state := bind_ok unmoved
    cases answered.symm.trans moves
  cases target : held.target with
  | list list =>
    cases found : (state.containers.elementsOf list)[held.index]? with
    | some first =>
      have moved : perform surroundings (.next cursor) state =
          .ok (.step (some first)) (state.moved cursor (held.index + 1)) :=
        bind_ok (next_moves there target steady found)
      cases moved.symm.trans moves
      exact ⟨list, rfl, found, rfl⟩
    | none => exact (stays (next_stays there target (List.getElem?_eq_none_iff.1 found))).elim
  | detached => exact (stays (next_detached there target)).elim
  | undefined => exact (defined target).elim

theorem next_restored (attached : held.target = .list list) {element : Value}
    (found : (state.containers.elementsOf list)[held.index]? = some element) :
    perform surroundings (.previous cursor) (state.moved cursor (held.index + 1)) =
      .ok (.step (some element)) state := by
  have unmoved := State.moved_steady steady cursor (held.index + 1)
  have back := previous_answers surroundings (State.moved_there there (held.index + 1)) unmoved attached
    rfl found
  rwa [State.moved_moved, State.moved_self there] at back

theorem obeys (defined : held.target ≠ .undefined) : held.Obeys surroundings cursor state where
  next_moves list element attached found := bind_ok (next_moves there attached steady found)
  next_stays ends := by
    cases target : held.target with
    | list list => exact bind_ok (next_stays there target (ends list target))
    | detached => exact bind_ok (next_detached there target)
    | undefined => exact (defined target).elim
  previous_moves list index element attached behind found :=
    previous_answers surroundings there steady attached behind found
  previous_stays stays := bind_ok (previous_stays there stays)
  previous_destroyed list attached moved destroyed := by
    obtain ⟨index, behind⟩ := Nat.exists_eq_add_one.2 moved
    have empty := steady.elements_eq_nil destroyed
    refine ⟨_, state.moved_changes cursor index, ?_⟩
    rw [← Containers.refusal_destroyed destroyed index]
    exact previous_fails surroundings there steady attached behind (by simp [empty])
  previous_outside list index attached behind live outside := by
    refine ⟨_, state.moved_changes cursor index, ?_⟩
    rw [← Containers.refusal_live live]
    exact previous_fails surroundings there steady attached behind outside
  restores element after moves := by
    obtain ⟨list, attached, found, rfl⟩ := next_found surroundings there steady defined moves
    exact next_restored surroundings there steady attached found
  copies := copy_copies surroundings there
  detaches := detach_detaches surroundings there

end Obeying

end Cursor

namespace Containers

def ReachedBy (now : Containers) (moments : List Containers) : Prop :=
  ∀ cursor held list, now.cursors.cell? cursor = some held → held.target = .list list →
    held.index = 0 ∨ ∃ moment ∈ moments, held.index ≤ (moment.elementsOf list).length

theorem ReachedBy.mono {now : Containers} {early late : List Containers} (reached : now.ReachedBy early)
    (more : early ⊆ late) : now.ReachedBy late := by
  intro cursor held list there attached
  refine (reached cursor held list there attached).imp_right fun ⟨moment, member, far⟩ => ?_
  exact ⟨moment, more member, far⟩

end Containers

structure State.Tracked (state : State Diary) : Prop where
  moments : ∀ position (moment : Containers), state.outside.moments[position]? = some moment →
    moment.ReachedBy (state.outside.moments.take (position + 1))
  now : state.containers.ReachedBy state.outside.moments

namespace State.Tracked

variable {state after : State Diary}

theorem start : State.Tracked { outside := {} } where
  moments position moment there := by simp at there
  now cursor held list there := by simp [Table.cell?] at there

theorem note : Keeps State.Tracked noteMoment := by
  intro before tracked
  refine ⟨fun position moment there => ?_, tracked.now.mono (List.subset_append_left _ _)⟩
  dsimp only [State.noted] at there ⊢
  by_cases earlier : position < before.outside.moments.length
  next =>
    rw [List.getElem?_append_left earlier] at there
    rw [List.take_append_of_le_length earlier]
    exact tracked.moments position moment there
  next =>
    rw [List.getElem?_append_right (Nat.le_of_not_lt earlier)] at there
    obtain rfl : moment = before.containers := by simpa using List.mem_of_getElem? there
    rw [List.take_of_length_le (by simp; omega)]
    exact tracked.now.mono (List.subset_append_left _ _)

theorem becomes (tracked : state.Tracked)
    (cursors : after.containers.cursors = state.containers.cursors)
    (same : after.outside.moments = state.outside.moments) : after.Tracked where
  moments := same ▸ tracked.moments
  now cursor held list there := same ▸ tracked.now cursor held list (cursors ▸ there)

theorem moves (tracked : state.Tracked) {step : Cursor → Cursor}
    (reaches : ∀ held list, state.containers.cursors.cell? cursor = some held →
      (step held).target = .list list → (step held).index = 0 ∨
        ∃ moment ∈ state.outside.moments, (step held).index ≤ (moment.elementsOf list).length) :
    (state.withCursors (state.containers.cursors.modify cursor step)).Tracked where
  moments := tracked.moments
  now other held list there attached := by
    dsimp only at there
    rw [Table.cell?_modify] at there
    split at there
    next same =>
      subst same
      obtain ⟨earlier, was, rfl⟩ := Option.map_eq_some_iff.1 there
      exact reaches earlier list was attached
    next => exact tracked.now other held list there attached

theorem adds (tracked : state.Tracked) {made : Cursor}
    (reaches : ∀ list, made.target = .list list → made.index = 0 ∨
      ∃ moment ∈ state.outside.moments, made.index ≤ (moment.elementsOf list).length) :
    Ends (Cursor.add made) state (fun _ => State.Tracked) fun _ => State.Tracked := by
  refine ⟨tracked.moments, fun other held list there attached => ?_⟩
  have there := (Table.cell?_add state.containers.cursors made other).symm.trans there
  split at there
  next =>
    cases there
    exact reaches list attached
  next => exact tracked.now other held list there attached

theorem next (tracked : state.Tracked) (noted : state.containers ∈ state.outside.moments)
    (cursor : Handle Cursor) :
    Ends (Cursor.next cursor) state (fun _ => State.Tracked) fun _ => State.Tracked := by
  apply Ends.bind_eq rfl
  split
  · exact tracked
  · exact tracked
  next list attached =>
    apply Ends.bind_eq rfl
    split
    · exact tracked
    next inside =>
      refine Ends.bind_eq rfl (((Keeps.elementAt list _).bind fun _ => .of_pure _) _ ?_)
      refine tracked.moves fun held other there target => .inr ⟨state.containers, noted, ?_⟩
      rw [Table.get_of_cell? there] at attached inside ⊢
      cases attached.symm.trans target
      rw [Containers.length_elementsOf]
      exact Nat.lt_of_not_le inside

theorem previous (tracked : state.Tracked) (cursor : Handle Cursor) :
    Ends (Cursor.previous cursor) state (fun _ => State.Tracked) fun _ => State.Tracked := by
  apply Ends.bind_eq rfl
  split
  next list index attached behind =>
    refine Ends.bind_eq rfl (((Keeps.elementAt list _).bind fun _ => .of_pure _) _ ?_)
    refine tracked.moves fun held other there target => ?_
    rw [Table.get_of_cell? there] at attached behind
    rcases tracked.now cursor held other there target with start | ⟨moment, member, far⟩
    · omega
    · exact .inr ⟨moment, member, by dsimp only; omega⟩
  · exact tracked

theorem perform_moves (surroundings : Surroundings Diary) {operation : Operation}
    (moves : operation.movesCursors) (tracked : state.Tracked)
    (noted : state.containers ∈ state.outside.moments) :
    Ends (perform surroundings operation) state (fun _ => State.Tracked) fun _ => State.Tracked := by
  have begins (target : CursorTarget) : Keeps State.Tracked (Cursor.before target) :=
    fun _ tracked => tracked.adds fun _ _ => .inl rfl
  cases operation with
  | cursorOf list =>
    have starts := (Keeps.requireLive list .cursor).bind fun _ => begins (.list list)
    exact (starts state tracked).bind fun _ _ kept => kept
  | cursorAt target => exact (begins target state tracked).bind fun _ _ kept => kept
  | next cursor => exact (tracked.next noted cursor).bind fun _ _ kept => kept
  | previous cursor => exact (tracked.previous cursor).bind fun _ _ kept => kept
  | copyCursor cursor =>
    have copies : Ends (Cursor.copy cursor) state (fun _ => State.Tracked) fun _ => State.Tracked := by
      refine Ends.bind_eq rfl (tracked.adds fun list attached => ?_)
      cases there : state.containers.cursors.cell? cursor with
      | none =>
        rw [Table.get_of_cell?_eq_none there] at attached
        cases attached
      | some held =>
        rw [Table.get_of_cell? there] at attached ⊢
        exact tracked.now cursor held list there attached
    exact copies.bind fun _ _ kept => kept
  | detach cursor => exact Ends.bind_eq rfl (tracked.moves fun _ _ _ attached => by cases attached)
  | _ => cases moves

end State.Tracked

variable {host : Callbacks Diary}

theorem final_tracks (ordinary : host.Ordinary) (conducts : Conducts) (depth : Nat)
    (script : List Operation) : (conducts.final host depth script).Tracked := by
  refine final_keeps_noted .note (fun run runs operation before tracked => ?_) .start depth script
  have upkeep : Upkeep (conducts.surroundings host run) (fun _ => True) State.Tracked :=
    conducts.unrestricted.upkeep ordinary (fun script _ => runs script)
      (fun _ _ tracked _ => tracked.becomes rfl rfl) (fun tracked _ => ⟨trivial, tracked.becomes rfl rfl⟩)
      (fun _ _ tracked => tracked.becomes rfl rfl) fun _ _ _ _ tracked => tracked.becomes rfl rfl
  have noted : before.noted.Tracked := State.Tracked.note before tracked
  by_cases moves : operation.movesCursors
  next => exact noted.perform_moves _ moves (by simp [State.noted])
  next =>
    refine upkeep.perform_keeps (.of_any fun _ _ tracked => tracked.becomes rfl rfl) operation
      (fun _ _ => trivial) (fun _ _ _ tracked => tracked.becomes rfl rfl) (fun _ => ?_)
      (fun moving => (moves moving).elim) _ noted
    exact destruct_keeps (fun _ tracked => tracked.becomes rfl rfl)
      (fun _ _ _ tracked => tracked.becomes rfl rfl) runs

deriving instance DecidableEq for Cursor

def NeverShortened (list : Handle Sequence) (moments : List Containers) : Prop :=
  moments.Pairwise fun early late =>
    (early.elementsOf list).length ≤ (late.elementsOf list).length

theorem Containers.ReachedBy.within {moments : List Containers} {position : Nat} {moment : Containers}
    (reached : moment.ReachedBy (moments.take (position + 1)))
    (there : moments[position]? = some moment) (never : NeverShortened list (moments.take (position + 1)))
    (found : moment.cursors.cell? cursor = some held) (attached : held.target = .list list) :
    held.index ≤ (moment.elementsOf list).length := by
  rcases reached cursor held list found attached with start | ⟨early, member, far⟩
  · omega
  rw [List.take_add_one, there, Option.toList_some] at member never
  rcases List.mem_append.1 member with earlier | now
  · exact Nat.le_trans far ((List.pairwise_append.1 never).2.2 early earlier moment (by simp))
  · exact List.mem_singleton.1 now ▸ far

/--
At every moment of a run, whatever callbacks do, the operations of a cursor end as its place in its list
tells, and change no other cursor and no list. As long as the list has never been shortened, the cursor
is inside it, and no step fails.
-/
theorem cursors_follow_their_lists (ordinary : host.Ordinary) (conducts : Conducts) (depth : Nat)
    (script : List Operation) :
    let moments := (conducts.final host depth script).outside.moments
    ∀ position moment, moments[position]? = some moment → ∀ cursor held,
      moment.cursors.cell? cursor = some held → held.target ≠ .undefined →
        ∀ (Outside : Type) (surroundings : Surroundings Outside) (state : State Outside),
          state.containers = moment →
            held.Obeys surroundings cursor state ∧
              ∀ list, held.target = .list list → NeverShortened list (moments.take (position + 1)) →
                held.index ≤ (moment.elementsOf list).length ∧
                  Succeeds (perform surroundings (.next cursor)) state (fun _ _ => True) ∧
                  Succeeds (perform surroundings (.previous cursor)) state fun _ _ => True := by
  rintro moments position moment there cursor held found defined Outside surroundings state rfl
  have member := List.mem_append_left [(conducts.final host depth script).containers]
    (List.mem_of_getElem? there)
  have steady := (final_lasts ordinary conducts depth script).steady _ member
  have obeys := Cursor.obeys surroundings found steady defined
  refine ⟨obeys, fun list attached never => ?_⟩
  have reached := (final_tracks ordinary conducts depth script).moments position _ there
  have within := reached.within there never found attached
  refine ⟨within, obeys.next_succeeds, ?_⟩
  cases behind : held.index with
  | zero => exact ⟨_, _, obeys.previous_stays (.inr behind), trivial⟩
  | succ index =>
    have inside : index < (state.containers.elementsOf list).length := by omega
    have element := List.getElem?_eq_getElem inside
    exact ⟨_, _, obeys.previous_moves list index _ attached behind element, trivial⟩

instance (list : Handle Sequence) (moments : List Containers) : Decidable (NeverShortened list moments) :=
  inferInstanceAs (Decidable (List.Pairwise _ moments))

theorem cursors_follow_their_lists_that_grow :
    let host := Callbacks.plain Diary fun _ => compareOn Value.rank
    let surroundings := Conducts.still.quietly host
    let moments := (Conducts.still.final host 1 [.listOf [.integer 1, .null] {}, .cursorOf ⟨0⟩,
      .next ⟨0⟩, .next ⟨0⟩, .copyCursor ⟨0⟩, .append ⟨0⟩ (.integer 3)]).outside.moments
    ∃ moment, moments[6]? = some moment ∧
      let state : State Diary := { containers := moment, outside := {} }
      perform surroundings (.next ⟨0⟩) state = .ok (.step (some (.integer 3))) (state.moved ⟨0⟩ 3) ∧
        perform surroundings (.previous ⟨0⟩) (state.moved ⟨0⟩ 3) = .ok (.step (some (.integer 3))) state ∧
        perform surroundings (.previous ⟨1⟩) state = .ok (.step (some .null)) (state.moved ⟨1⟩ 1) ∧
        2 ≤ (moment.elementsOf ⟨0⟩).length := by
  intro host surroundings moments
  have facts : moments[6]?.map (fun moment =>
      (moment.cursors.cell? ⟨0⟩, moment.cursors.cell? ⟨1⟩, moment.elementsOf ⟨0⟩)) =
      some (some { target := .list ⟨0⟩, index := 2 }, some { target := .list ⟨0⟩, index := 2 },
        [.integer 1, .null, .integer 3]) := by
    decide +kernel
  have never : NeverShortened ⟨0⟩ (moments.take 7) := by decide +kernel
  obtain ⟨moment, there, found⟩ := Option.map_eq_some_iff.1 facts
  simp only [Prod.mk.injEq] at found
  obtain ⟨first, second, elements⟩ := found
  have follow := cursors_follow_their_lists (Callbacks.plain_ordinary Diary _) Conducts.still 1 _ 6 moment
    there
  have ahead : (moment.elementsOf ⟨0⟩)[2]? = some (.integer 3) := by rw [elements]; rfl
  have behind : (moment.elementsOf ⟨0⟩)[1]? = some .null := by rw [elements]; rfl
  let state : State Diary := { containers := moment, outside := {} }
  obtain ⟨obeys, within⟩ := follow ⟨0⟩ _ first nofun Diary surroundings state rfl
  obtain ⟨copied, _⟩ := follow ⟨1⟩ _ second nofun Diary surroundings state rfl
  have moves := obeys.next_moves ⟨0⟩ (.integer 3) rfl ahead
  exact ⟨moment, there, moves, obeys.restores _ _ moves, copied.previous_moves ⟨0⟩ 1 .null rfl rfl behind,
    (within ⟨0⟩ rfl never).1⟩

section Failing

variable (surroundings : Surroundings Outside) {state : State Outside}

def previousEach (surroundings : Surroundings Outside) (cursor : Handle Cursor) :
    Nat → State Outside → List (Except Failure Operation.Answer) × State Outside
  | 0, state => ([], state)
  | calls + 1, state =>
      let (outcome, after) := attempt (perform surroundings (.previous cursor)) state
      let (outcomes, last) := previousEach surroundings cursor calls after
      (outcome :: outcomes, last)

-- Each failing step brings the cursor nearer to the end of its list.
theorem previousEach_fails (there : state.containers.cursors.cell? cursor = some held)
    (steady : state.containers.Steady) (attached : held.target = .list list) {calls : Nat}
    (beyond : (state.containers.elementsOf list).length + calls ≤ held.index) :
    previousEach surroundings cursor calls state =
      ((List.range calls).map fun call =>
        .error (state.containers.refusal list (held.index - (call + 1))),
        state.moved cursor (held.index - calls)) := by
  induction calls generalizing state held with
  | zero => exact congrArg ([], ·) (State.moved_self there).symm
  | succ calls ih =>
    obtain ⟨index, behind⟩ := Nat.exists_eq_add_one.2 (by omega : 0 < held.index)
    have fails := Cursor.previous_fails surroundings there steady attached behind (by omega)
    have unmoved := State.moved_steady steady cursor index
    have same : (state.moved cursor index).containers.elementsOf list =
      state.containers.elementsOf list := rfl
    have later := ih (State.moved_there there index) unmoved attached (by rw [same]; dsimp only; omega)
    have first : attempt (perform surroundings (.previous cursor)) state =
        (.error (state.containers.refusal list index), state.moved cursor index) := by
      simp only [attempt, fails]
    rw [previousEach, first]
    dsimp only
    rw [later, State.moved_moved, List.range_succ_eq_map, List.map_cons, List.map_map]
    have left : index - calls = held.index - (calls + 1) := by omega
    have refusals (call : Nat) : held.index - (call + 1 + 1) = index - (call + 1) := by omega
    have now : held.index - 1 = index := by omega
    simp only [left, Function.comp_def, Nat.succ_eq_add_one, refusals, Nat.zero_add, now]
    rfl

theorem previous_at_end (there : state.containers.cursors.cell? cursor = some held)
    (steady : state.containers.Steady) (attached : held.target = .list list) :
    Succeeds (perform surroundings (.previous cursor))
      (state.moved cursor (state.containers.elementsOf list).length) fun answer _ =>
        answer = .step (state.containers.elementsOf list).getLast? := by
  have now := State.moved_there there (state.containers.elementsOf list).length
  have unmoved := State.moved_steady steady cursor (state.containers.elementsOf list).length
  cases whole : (state.containers.elementsOf list).length with
  | zero =>
    rw [whole] at now
    rw [List.length_eq_zero_iff.1 whole]
    exact ⟨_, _, bind_ok (Cursor.previous_stays now (.inr rfl)), rfl⟩
  | succ last =>
    rw [whole] at now unmoved
    have inside : last < (state.containers.elementsOf list).length := by omega
    have answers := Cursor.previous_answers surroundings now unmoved attached rfl
      (List.getElem?_eq_getElem inside)
    refine ⟨_, _, answers, ?_⟩
    rw [List.getLast?_eq_getElem?, whole, Nat.add_sub_cancel, List.getElem?_eq_getElem inside]

/--
At every moment of a run a step forward does not fail, and one that fails going back leaves everything
as it was but the cursor, which is one nearer to the beginning. So the same call fails only as often as
there are places between the end of the list and the cursor, and then answers the last element.
-/
theorem failing_steps_use_themselves_up (ordinary : host.Ordinary) (conducts : Conducts) (depth : Nat)
    (script : List Operation) :
    ∀ moment ∈ (conducts.final host depth script).outside.moments, ∀ cursor held,
      moment.cursors.cell? cursor = some held → held.target ≠ .undefined →
        ∀ (Outside : Type) (surroundings : Surroundings Outside) (state : State Outside),
          state.containers = moment →
            Succeeds (perform surroundings (.next cursor)) state (fun _ _ => True) ∧
              (∀ failure after, perform surroundings (.previous cursor) state = .error failure after →
                ∃ list index, held.target = .list list ∧ held.index = index + 1 ∧
                  failure = moment.refusal list index ∧ after = state.moved cursor index) ∧
              ∀ list calls, held.target = .list list →
                held.index = (moment.elementsOf list).length + calls →
                  previousEach surroundings cursor calls state =
                      ((List.range calls).map fun call =>
                        .error (moment.refusal list (held.index - (call + 1))),
                        state.moved cursor (moment.elementsOf list).length) ∧
                    Succeeds (perform surroundings (.previous cursor))
                      (state.moved cursor (moment.elementsOf list).length) fun answer _ =>
                        answer = .step (moment.elementsOf list).getLast? := by
  rintro moment member cursor held found defined Outside surroundings state rfl
  have steady := (final_lasts ordinary conducts depth script).steady _ (List.mem_append_left _ member)
  have obeys := Cursor.obeys surroundings found steady defined
  refine ⟨obeys.next_succeeds, fun failure after failed => ?_, fun list calls attached beyond => ⟨?_, ?_⟩⟩
  next =>
    obtain ⟨list, index, attached, behind, outside⟩ := obeys.refused defined failed
    cases (Cursor.previous_fails surroundings found steady attached behind outside).symm.trans failed
    exact ⟨list, index, attached, behind, rfl, rfl⟩
  next =>
    rw [previousEach_fails surroundings found steady attached (by omega)]
    have place : held.index - calls = (state.containers.elementsOf list).length := by omega
    rw [place]
  next => exact previous_at_end surroundings found steady attached

theorem failing_steps_use_themselves_up_after_removals :
    let host := Callbacks.plain Diary fun _ => compareOn Value.rank
    let surroundings := Conducts.still.quietly host
    let refusal (index : Nat) : Failure := .list (.indexOutOfRange (.number (.ofNat index)) (.ofNat 1))
    let moments := (Conducts.still.final host 1 [.listOf [.integer 1, .integer 2, .integer 3] {},
      .cursorOf ⟨0⟩, .next ⟨0⟩, .next ⟨0⟩, .next ⟨0⟩, .removeFirst ⟨0⟩, .removeFirst ⟨0⟩]).outside.moments
    (moments.drop 7).length = 1 ∧ ∀ moment ∈ moments.drop 7,
      let late : State Diary := { containers := moment, outside := {} }
      previousEach surroundings ⟨0⟩ 2 late =
          ([.error (refusal 2), .error (refusal 1)], late.moved ⟨0⟩ 1) ∧
        Succeeds (perform surroundings (.previous ⟨0⟩)) (late.moved ⟨0⟩ 1) fun answer _ =>
          answer = .step (some (.integer 3)) := by
  intro host surroundings refusal moments
  have facts : ∀ moment ∈ moments.drop 7,
      moment.cursors.cell? ⟨0⟩ = some { target := .list ⟨0⟩, index := 3 } ∧
        moment.elementsOf ⟨0⟩ = [.integer 3] ∧ moment.refusal ⟨0⟩ 2 = refusal 2 ∧
          moment.refusal ⟨0⟩ 1 = refusal 1 := by
    decide +kernel
  refine ⟨by decide +kernel, fun moment member => ?_⟩
  obtain ⟨found, elements, second, first⟩ := facts moment member
  obtain ⟨_, _, fails⟩ := failing_steps_use_themselves_up (Callbacks.plain_ordinary Diary _)
    Conducts.still 1 _ moment (List.mem_of_mem_drop member) ⟨0⟩ _ found nofun Diary surroundings
    { containers := moment, outside := {} } rfl
  obtain ⟨failing, answers⟩ := fails ⟨0⟩ 2 rfl (by rw [elements]; rfl)
  rw [elements] at failing answers
  refine ⟨failing.trans ?_, answers⟩
  simp [List.range_succ, first, second]

theorem cursor_moved_by_failing_step :
    let surroundings := Conducts.still.quietly (Callbacks.plain Diary fun _ => compareOn Value.rank)
    let late := Conducts.still.final (Callbacks.plain Diary fun _ => compareOn Value.rank) 1
      [.listOf [.integer 1, .integer 2, .integer 3] {}, .cursorOf ⟨0⟩, .next ⟨0⟩, .next ⟨0⟩, .next ⟨0⟩,
        .removeFirst ⟨0⟩, .removeFirst ⟨0⟩]
    let first := attempt (perform surroundings (.previous ⟨0⟩)) late
    let second := attempt (perform surroundings (.previous ⟨0⟩)) first.2
    let index (state : State Diary) := (state.containers.cursors.get ⟨0⟩).index
    first.1.toOption.isNone ∧ second.1.toOption.isNone ∧
      index late = 3 ∧ index first.2 = 2 ∧ index second.2 = 1 := by
  decide +kernel

end Failing

end Collections
