import Collections.Proofs.Runs.Soundness
import Collections.Proofs.Sequence.Growth

set_option autoImplicit false

namespace Collections

variable {Outside : Type} {list gone : Handle Sequence}

def Sequence.Ended (held : Sequence) : Prop :=
  held.destroyed = true ∧ held.length = 0 ∧ held.negativeZero = false

def Containers.Ended (moment : Containers) (list : Handle Sequence) : Prop :=
  ∃ held, moment.lists.cell? list = some held ∧ held.Ended

namespace Operation

def ended? : Operation → Option (Handle Sequence)
  | .destroy list | .destroyIfPresent (some list) | .convertToOrderedSet list => some list
  | _ => none

def guarded? : Operation → Option (Handle Sequence × ListOperation)
  | .get list _ => some (list, .get)
  | .set list _ _ => some (list, .set)
  | .append list _ => some (list, .append)
  | .appendAll list _ => some (list, .appendAll)
  | .setDestructor list _ => some (list, .setDestructor)
  | .remove list _ | .removeFirst list => some (list, .remove)
  | .pop list => some (list, .pop)
  | .peek list => some (list, .peek)
  | .removeItem list _ | .indexOf list _ | .contains list _ => some (list, .indexOf)
  | .copy list _ => some (list, .copy)
  | .reverse list => some (list, .reverse)
  | .sort list _ => some (list, .sort)
  | .shuffle list => some (list, .shuffle)
  | .toOrderedSet list _ | .convertToOrderedSet list => some (list, .toOrderedSet)
  | .filter list _ | .filterMembers list _ | .filterOthers list _ => some (list, .filter)
  | .cursorOf list => some (list, .cursor)
  | .toList list => some (list, .toList)
  | .destroy list | .destroyIfPresent (some list) => some (list, .destroy)
  | _ => none

def stepped? : Operation → Option (Handle Traversal)
  | .advance traversal | .collect traversal | .setOfTraversal traversal _ _ => some traversal
  | _ => none

end Operation

section Becoming

/-- What a list has become is so related to what it was, whatever edits were made of it. -/
structure Sequence.Lasts (related : Sequence → Sequence → Prop) : Prop where
  refl : ∀ held, related held held
  trans : ∀ {first second third}, related third second → related second first → related third first
  edits : ∀ {held after : Sequence}, held.Edit after → related after held

def Containers.Became (related : Sequence → Sequence → Prop) (late early : Containers) : Prop :=
  ∀ list held, early.lists.cell? list = some held →
    ∃ kept, late.lists.cell? list = some kept ∧ related kept held

variable {related : Sequence → Sequence → Prop} (lasts : Sequence.Lasts related)

include lasts

namespace Containers.Became

theorem refl (moment : Containers) : moment.Became related moment :=
  fun _ held there => ⟨held, there, lasts.refl held⟩

theorem trans {first second third : Containers} (late : third.Became related second)
    (early : second.Became related first) : third.Became related first := by
  intro list held there
  obtain ⟨middle, there, onward⟩ := early list held there
  obtain ⟨kept, there, later⟩ := late list middle there
  exact ⟨kept, there, lasts.trans later onward⟩

theorem edits {state : State Outside} (step : Sequence → Sequence)
    (edit : ∀ held, state.containers.lists.cell? list = some held → held.Edit (step held)) :
    (state.withLists (state.containers.lists.modify list step)).containers.Became related
      state.containers := by
  intro other held there
  rw [Table.cell?_modify]
  split
  next same =>
    subst same
    exact ⟨step held, by rw [there]; rfl, lasts.edits (edit held there)⟩
  next => exact ⟨held, there, lasts.refl held⟩

theorem creates (state : State Outside) (made : Sequence) :
    (state.withLists (state.containers.lists.add made).1).containers.Became related
      state.containers :=
  fun _ held there => ⟨held, Table.cell?_add_of_there there made, lasts.refl held⟩

end Containers.Became

variable {host : Callbacks Diary} {conducts : Conducts} {keeps : State Diary → Prop}
  (ordinary : host.Ordinary)

include ordinary

section Keeping

variable {run : List Operation → Action Diary Unit}
  (becomes : ∀ {state after : State Diary}, keeps state →
    after.containers.Became related state.containers →
      after.outside.moments = state.outside.moments → keeps after)
  (runs : ∀ script, Keeps keeps (run script))

include becomes runs

theorem becoming_invariant : Invariant (conducts.surroundings host run) (fun _ => True) keeps := by
  refine conducts.unrestricted.invariant ordinary (fun script _ => runs script) ?_ ?_
    (fun _ _ kept => becomes kept (.refl lasts _) rfl) (fun _ _ kept => becomes kept (.refl lasts _) rfl)
    fun _ _ _ _ kept => becomes kept (.refl lasts _) rfl
  next => exact fun step _ kept edit => becomes kept (.edits lasts step edit) rfl
  next => exact fun {state held} kept _ => ⟨trivial, becomes kept (.creates lasts state held) rfl⟩

omit ordinary in
theorem destruct_becomes (destructor : String) (value : Value) :
    Keeps keeps ((conducts.surroundings host run).destruct destructor value) :=
  destruct_keeps (fun _ kept => becomes kept (.refl lasts _) rfl)
    (fun _ _ _ kept => becomes kept (.refl lasts _) rfl) runs destructor value

theorem perform_becomes (operation : Operation) :
    Keeps keeps (perform (conducts.surroundings host run) operation) :=
  (becoming_invariant lasts ordinary becomes runs).perform_keeps operation (fun _ _ => trivial)
    (fun _ _ _ kept => becomes kept (.refl lasts _) rfl) fun _ => destruct_becomes lasts becomes runs

end Keeping

theorem final_becomes (conducts : Conducts) (depth : Nat) (script : List Operation) :
    (conducts.final host depth script).Chained fun early late => late.Became related early := by
  have notes : Keeps (State.Chained fun early late => late.Became related early) noteMoment :=
    State.Chained.note (.refl lasts)
  refine final_keeps notes (fun _ runs => perform_becomes lasts ordinary ?_ runs) .start depth script
  exact fun chained step same => chained.becomes (fun _ _ _ early late => late.trans lasts early) step same

theorem runWithin_becomes (moment : Containers) (depth : Nat) (script : List Operation) :
    Keeps (fun state => state.containers.Became related moment) (conducts.runWithin host depth script) :=
  runWithin_keeps (fun _ kept => kept)
    (fun _ runs operation _ => perform_becomes lasts ordinary (fun early late _ => late.trans lasts early)
      (fun script => runs script fun _ _ => trivial) operation)
    depth fun _ _ => trivial

end Becoming

section Continuing

namespace Sequence

/-- The end of a list is final, and before it no room is lost. -/
structure Continues (late early : Sequence) : Prop where
  ended : early.Ended → late.Ended
  room : late.destroyed = false → early.destroyed = false ∧ early.capacity ≤ late.capacity

variable {held after : Sequence}

theorem Continues.refl (held : Sequence) : held.Continues held := ⟨id, fun live => ⟨live, Nat.le_refl _⟩⟩

theorem Continues.trans {first second third : Sequence} (late : third.Continues second)
    (early : second.Continues first) : third.Continues first where
  ended := late.ended ∘ early.ended
  room live :=
    have middle := late.room live
    have first := early.room middle.1
    ⟨first.1, Nat.le_trans first.2 middle.2⟩

theorem Edit.ended (edit : held.Edit after) (ended : held.Ended) : after.Ended := by
  obtain ⟨destroyed, empty, zero⟩ := ended
  cases edit with
  | pushed live => exact absurd destroyed (by simp [live])
  | shiftedOut slot => exact ⟨destroyed, by simp [shiftOut, empty], zero⟩
  | released => exact ⟨rfl, rfl, rfl⟩
  | _ => exact ⟨destroyed, empty, zero⟩

theorem Edit.continues (edit : held.Edit after) : after.Continues held where
  ended := edit.ended
  room live := by
    cases edit with
    | grown => exact ⟨live, Storage.le_capacity_reallocate (Nat.le_of_lt (lt_grownCapacity _))⟩
    | pushed alive value => exact ⟨alive, Storage.le_capacity_write _ _ _⟩
    | written => exact ⟨live, Storage.le_capacity_write _ _ _⟩
    | shiftedOut =>
      refine ⟨live, ?_⟩
      unfold Sequence.capacity shiftOut Storage.shiftOut
      rw [Storage.capacity_unassign]
      exact Storage.le_capacity_writeFrom _ _ _
    | overwritten => exact ⟨live, Storage.le_capacity_writeFrom _ _ _⟩
    | turned =>
      exact ⟨live, Nat.le_trans (Storage.le_capacity_writeFrom _ _ _) (Storage.le_capacity_writeFrom _ _ _)⟩
    | released => cases live
    | _ => exact ⟨live, Nat.le_refl _⟩

theorem Continues.lasts : Lasts Continues where
  refl := .refl
  trans := .trans
  edits edit := edit.continues

end Sequence

namespace Containers

def Continues (late early : Containers) : Prop :=
  ∀ list held, early.lists.cell? list = some held →
    ∃ kept, late.lists.cell? list = some kept ∧ kept.Continues held

variable {first second third : Containers}

theorem Continues.refl (moment : Containers) : moment.Continues moment :=
  Became.refl Sequence.Continues.lasts moment

theorem Continues.trans (late : third.Continues second) (early : second.Continues first) :
    third.Continues first :=
  Became.trans Sequence.Continues.lasts late early

theorem Continues.ended (continues : second.Continues first) (ended : first.Ended list) :
    second.Ended list := by
  obtain ⟨held, there, ended⟩ := ended
  obtain ⟨kept, there, stays⟩ := continues list held there
  exact ⟨kept, there, stays.ended ended⟩

end Containers

variable {host : Callbacks Diary} {conducts : Conducts} {keeps : State Diary → Prop}

theorem final_continues (ordinary : host.Ordinary) (conducts : Conducts) (depth : Nat)
    (script : List Operation) :
    (conducts.final host depth script).Chained fun early late => late.Continues early :=
  final_becomes Sequence.Continues.lasts ordinary conducts depth script

theorem runWithin_continues (ordinary : host.Ordinary) (moment : Containers) (depth : Nat)
    (script : List Operation) :
    Keeps (fun state => state.containers.Continues moment) (conducts.runWithin host depth script) :=
  runWithin_becomes Sequence.Continues.lasts ordinary moment depth script

end Continuing

section Ending

variable {surroundings : Surroundings Outside} {held : Sequence} {before : State Outside}

theorem Sequence.release_ends {callbacks : Callbacks Outside}
    (there : before.containers.lists.cell? list = some held) (notice : Notice) :
    Succeeds (do
      change list release
      notify callbacks list notice) before fun _ after => after.containers.Ended list := by
  refine (change_changes callbacks there release).bind fun _ freed ⟨_, there⟩ => ?_
  refine (notify_notifies there notice).imp fun _ after ⟨_, same⟩ => ?_
  rw [same]
  exact ⟨_, there, rfl, rfl, rfl⟩

section Outcome

variable (destructs : ∀ moment destructor value,
  Keeps (fun state : State Outside => state.containers.Continues moment)
    (surroundings.destruct destructor value))

include destructs

theorem Sequence.destroy_ends (list : Handle Sequence) (before : State Outside) :
    Ends (destroy surroundings.toCallbacks list) before (fun _ after => after.containers.Ended list)
      fun _ _ => True := by
  refine requireLive_bind trivial fun held there _ => Ends.bind_eq rfl ?_
  have releases {middle : State Outside} (notice : Notice)
      (continues : middle.containers.Continues before.containers) :
      Ends (do
        change list release
        notify surroundings.toCallbacks list notice) middle
        (fun _ after => after.containers.Ended list) fun _ _ => True := by
    obtain ⟨kept, there, _⟩ := continues list held there
    exact (release_ends there notice).ends
  split
  next destructor _ =>
    have walks (count : Nat) :=
      Contract.destructFrom (destructs before.containers) list destructor 0 count before (.refl _)
    exact ((walks _).imp (fun _ _ kept => kept) fun _ _ _ => trivial).bind
      fun _ _ continues => releases _ continues
  next => exact releases _ (.refl _)

theorem perform_ends {operation : Operation} (ends : operation.ended? = some list)
    (before : State Outside) :
    Ends (perform surroundings operation) before (fun _ after => after.containers.Ended list)
      fun _ _ => True := by
  have destroys (before : State Outside) := Sequence.destroy_ends destructs list before
  unfold Operation.ended? at ends
  split at ends <;> cases ends
  next => exact (destroys before).bind fun _ _ ended => ended
  next => exact (destroys before).bind fun _ _ ended => ended
  next =>
    -- Whatever comes before it, the last stage is to destroy the list.
    refine ((Yields.of_any _ before).bind fun set made _ => Ends.bind_eq rfl ?_).bind
      fun _ _ ended => ended
    refine (Yields.of_any _ made).bind fun _ given _ => ?_
    refine (Yields.of_any _ given).bind fun _ bare _ => Ends.bind_eq rfl ?_
    refine (Yields.of_any _ bare).bind fun _ told _ => ?_
    exact (destroys told).bind fun _ _ ended => ended

end Outcome

end Ending

section Refusing

variable {α β : Type} {action : Action Outside α} {next : α → Action Outside β} {state : State Outside}
  {guard : ListOperation} {traversal : Handle Traversal} {walk : Traversal}

-- The action does nothing but report that the list it was asked of is destroyed.
def Refused (action : Action Outside α) (state : State Outside) (guard : ListOperation) : Prop :=
  action state = .error (.list (.destroyed guard)) state

theorem Refused.bind (refused : Refused action state guard) : Refused (action >>= next) state guard :=
  bind_error refused

/-- The action does nothing but end the traversal and report that its list is destroyed. -/
def Halts (action : Action Outside α) (state : State Outside) (traversal : Handle Traversal) : Prop :=
  action state = .error (.list (.destroyed .traverse)) (state.withTraversals
    (state.containers.traversals.modify traversal ({ · with phase := .finished })))

theorem Halts.bind (halts : Halts action state traversal) : Halts (action >>= next) state traversal :=
  bind_error halts

theorem Traversal.state_eq (there : state.containers.traversals.cell? traversal = some walk) :
    (Traversal.state traversal : Action Outside Traversal) state = .ok walk state := by
  rw [← Table.get_of_cell? there]
  rfl

variable (destroyed : (state.containers.lists.get list).destroyed = true)

include destroyed

theorem requireLive_refused (guard : ListOperation) :
    Refused (Sequence.requireLive list guard : Action Outside Unit) state guard := by
  have found : (Sequence.state list : Action Outside Sequence) state =
      .ok (state.containers.lists.get list) state := rfl
  apply (bind_ok found).trans
  rw [if_pos destroyed]
  rfl

theorem perform_refused (surroundings : Surroundings Outside) {operation : Operation}
    (guards : operation.guarded? = some (list, guard)) :
    Refused (perform surroundings operation) state guard := by
  have refused {β : Type} (next : Unit → Action Outside β) :
      Refused (Sequence.requireLive list guard >>= next) state guard :=
    (requireLive_refused destroyed guard).bind
  cases operation with
  | pop | peek | removeItem | contains | convertToOrderedSet =>
    -- The check is the first stage of another operation, of which this one is made.
    cases guards
    exact (refused _).bind.bind
  | destroyIfPresent present =>
    cases present <;> cases guards
    exact (refused _).bind
  | _ => cases guards <;> exact (refused _).bind

variable (there : state.containers.traversals.cell? traversal = some walk)
  (walks : walk.source = .list list) (fresh : walk.phase = .fresh)

include there walks fresh

theorem next_halts : Halts (Traversal.next traversal) state traversal := by
  have checks : Halts (Traversal.requireSource traversal) state traversal := by
    apply (bind_ok (Traversal.state_eq there)).trans
    rw [walks, fresh]
    have found : (Sequence.state list : Action Outside Sequence) state =
        .ok (state.containers.lists.get list) state := rfl
    apply (bind_ok found).trans
    rw [if_pos destroyed]
    rfl
  exact checks.bind

theorem visitAll_halts (callbacks : Callbacks Outside) (visit : Value → Action Outside α) :
    Halts (Traversal.visitAll callbacks traversal visit) state traversal := by
  have stepping : Halts (Traversal.next traversal) state traversal :=
    next_halts destroyed there walks fresh
  have counted : ∃ left, (Traversal.itemsLeft traversal : Action Outside Nat) state = .ok left state := by
    refine ⟨(state.containers.lists.get list).length - walk.position,
      (bind_ok (Traversal.state_eq there)).trans ?_⟩
    rw [walks]
    rfl
  obtain ⟨left, counted⟩ := counted
  apply (bind_ok counted).trans
  rw [Traversal.visitItems]
  exact stepping.bind

theorem perform_halts (surroundings : Surroundings Outside) {operation : Operation}
    (steps : operation.stepped? = some traversal) :
    Halts (perform surroundings operation) state traversal := by
  have visits {α : Type} (visit : Value → Action Outside α) :
      Halts (Traversal.visitAll surroundings.toCallbacks traversal visit) state traversal :=
    visitAll_halts destroyed there walks fresh _ visit
  cases operation with
  | advance =>
    cases steps
    exact (next_halts destroyed there walks fresh).bind
  | collect =>
    cases steps
    exact (visits _).bind
  | setOfTraversal =>
    cases steps
    exact (visits _).bind.bind
  | _ => cases steps

end Refusing

section Final

deriving instance DecidableEq for TraversalSource, Traversal

variable {host : Callbacks Diary}

/--
Where an operation that ends a list answers, the list has ended, and at any later moment of a run it has
so still. There each operation on it only reports that it is destroyed, whatever the callbacks and
whatever else it is given, and so does the first step of a traversal; the length is zero.
-/
theorem destruction_is_final (ordinary : host.Ordinary) (conducts : Conducts) (depth : Nat)
    (script : List Operation) :
    (∀ operation list before, operation.ended? = some list →
      Ends (perform (conducts.surroundings host (conducts.runWithin host depth)) operation) before
        (fun _ after => after.containers.Ended list) fun _ _ => True) ∧
    (conducts.final host depth script).outside.moments.Pairwise
      (fun early late => ∀ list, early.Ended list → late.Ended list) ∧
    ∀ (Outside : Type) (surroundings : Surroundings Outside) (state : State Outside) list,
      state.containers.Ended list →
        (∀ operation guard, operation.guarded? = some (list, guard) →
          Refused (perform surroundings operation) state guard) ∧
        (∀ operation traversal walk, operation.stepped? = some traversal →
          state.containers.traversals.cell? traversal = some walk → walk.source = .list list →
            walk.phase = .fresh → Halts (perform surroundings operation) state traversal) ∧
        perform surroundings (.lengthOf (some list)) state = .ok (.length (.ofNat 0)) state := by
  refine ⟨fun operation list before ends => ?_, ?_, fun Outside surroundings state list ended => ?_⟩
  next =>
    refine perform_ends (fun moment => ?_) ends before
    exact destruct_keeps (fun _ kept => kept) (fun _ _ _ kept => kept)
      (runWithin_continues ordinary moment depth)
  next =>
    have chained := (final_continues ordinary conducts depth script).moments
    exact chained.imp fun continues _ => continues.ended
  next =>
    obtain ⟨held, there, destroyed, empty, zero⟩ := ended
    rw [← Table.get_of_cell? there] at destroyed
    refine ⟨fun _ _ guards => perform_refused destroyed surroundings guards, ?_, ?_⟩
    · exact fun _ _ _ steps found walks fresh =>
        perform_halts destroyed found walks fresh surroundings steps
    · have told : held.reportedLength = .ofNat 0 := by simp [Sequence.reportedLength, zero, empty]
      rw [← told]
      exact bind_ok (bind_ok (Sequence.state_eq there))

theorem destruction_is_final_while_popped :
    let host := Callbacks.plain Diary fun _ => compareOn Value.rank
    let popping : Conducts := { Conducts.still with
      destruct := fun _ _ _ => { script := [.pop ⟨0⟩], outcome := .ok () } }
    let surroundings := popping.surroundings host (popping.runWithin host 1)
    let early := popping.final host 2
      [.listOf [.integer 1, .integer 2] { destructor := some "free" }, .traverse (.list ⟨0⟩)]
    let ended := attempt (perform surroundings (.destroy ⟨0⟩)) early
    ended.1.toOption.isSome ∧ ended.2.containers.Ended ⟨0⟩ ∧
      Refused (perform surroundings (.appendAll ⟨0⟩ ⟨0⟩)) ended.2 .appendAll ∧
        Halts (perform surroundings (.advance ⟨0⟩)) ended.2 ⟨0⟩ := by
  intro host popping surroundings early ended
  have ordinary : host.Ordinary := Callbacks.plain_ordinary Diary _
  obtain ⟨ends, _, refuses⟩ := destruction_is_final ordinary popping 1 []
  have answers : ended.1.toOption.isSome := by decide +kernel
  have fresh : ended.2.containers.traversals.cell? ⟨0⟩ = some { source := .list ⟨0⟩ } := by
    decide +kernel
  clear_value early
  obtain ⟨answer, answered⟩ := Option.isSome_iff_exists.1 answers
  have dead : ended.2.containers.Ended ⟨0⟩ :=
    (ends (.destroy ⟨0⟩) ⟨0⟩ early rfl).answered answered
  obtain ⟨guarded, stepped, _⟩ := refuses Diary surroundings ended.2 ⟨0⟩ dead
  refine ⟨answers, dead, guarded (.appendAll ⟨0⟩ ⟨0⟩) .appendAll rfl, ?_⟩
  exact stepped (.advance ⟨0⟩) ⟨0⟩ { source := .list ⟨0⟩ } rfl fresh rfl rfl

end Final

section Reading

variable {joined : Handle Sequence} {live dead : Sequence} {state : State Outside}
  (callbacks : Callbacks Outside) (there : state.containers.lists.cell? joined = some live)
  (lives : live.destroyed = false) (found : state.containers.lists.cell? gone = some dead)
  (destroyed : dead.destroyed = true) (empty : dead.length = 0)

include there lives

theorem appendAll_extends {source : Handle Sequence} (differ : source ≠ joined) :
    Succeeds (Sequence.appendAll callbacks joined source) state fun _ after =>
      state.ChangesOnly callbacks joined after ∧
        ∃ held, after.containers.lists.cell? joined = some held ∧ held.destroyed = false := by
  apply Succeeds.bind_eq (Sequence.requireLive_eq there lives .appendAll)
  rw [if_neg differ]
  refine (Sequence.appendEach_extends callbacks there lives _).imp fun _ after ⟨⟨changes, held⟩, _⟩ => ?_
  exact ⟨changes, _, held, Sequence.extendEach_live lives _⟩

include found destroyed

omit callbacks in
theorem ne_of_destroyed : gone ≠ joined := by
  rintro rfl
  rw [there] at found
  cases found
  simp [lives] at destroyed

include empty

theorem appendAll_dead : Sequence.appendAll callbacks joined gone state = .ok () state := by
  have differ := ne_of_destroyed there lives found destroyed
  have none : dead.elements = [] := by simp [Sequence.elements, Storage.valuesFrom, empty]
  apply (bind_ok (Sequence.requireLive_eq there lives .appendAll)).trans
  rw [if_neg differ]
  apply (bind_ok (Sequence.state_eq found)).trans
  rw [none]
  rfl

theorem appendSources_skips {sources : List (Handle Sequence)}
    (differ : ∀ source ∈ sources, source ≠ joined) :
    Succeeds (sources.forM (Sequence.appendAll callbacks joined)) state (fun _ _ => True) ∧
      sources.forM (Sequence.appendAll callbacks joined) state =
        (sources.filter (· ≠ gone)).forM (Sequence.appendAll callbacks joined) state := by
  induction sources generalizing state live with
  | nil => exact ⟨Succeeds.of_pure trivial, rfl⟩
  | cons source rest ih =>
    have later (other : Handle Sequence) (member : other ∈ rest) : other ≠ joined :=
      differ other (List.mem_cons_of_mem source member)
    by_cases same : source = gone
    next =>
      subst same
      have silent := appendAll_dead callbacks there lives found destroyed empty
      obtain ⟨succeeds, skips⟩ := ih there lives found later
      rw [List.filter_cons_of_neg (by simp), ← skips]
      exact ⟨Succeeds.bind_eq silent succeeds, bind_ok silent⟩
    next =>
      obtain ⟨_, middle, appended, changes, held, kept, keeps⟩ :=
        appendAll_extends callbacks there lives (differ source List.mem_cons_self)
      have apart := ne_of_destroyed there lives found destroyed
      obtain ⟨succeeds, skips⟩ := ih kept keeps ((changes.others gone apart).trans found) later
      rw [List.filter_cons_of_pos (by simpa using same)]
      refine ⟨Succeeds.bind_eq appended succeeds, ?_⟩
      have onward (others : List (Handle Sequence)) :
          (source :: others).forM (Sequence.appendAll callbacks joined) state =
            others.forM (Sequence.appendAll callbacks joined) middle := bind_ok appended
      rw [onward, onward]
      exact skips

omit there lives in
theorem join_skips {lists : List (Option (Handle Sequence))} (options : ListOptions)
    (present : ∀ list, some list ∈ lists → state.containers.lists.cell? list ≠ none) :
    Succeeds (Sequence.join callbacks lists options) state (fun _ _ => True) ∧
      Sequence.join callbacks lists options state =
        Sequence.join callbacks (lists.filter (· ≠ some gone)) options state := by
  obtain ⟨made, middle, added, changes, rfl, there⟩ :=
    Sequence.add_adds callbacks (Sequence.create options) state
  let made : Handle Sequence := ⟨state.containers.lists.cells.size⟩
  have missing : state.containers.lists.cell? made = none := by simp [Table.cell?, made]
  have differ (source : Handle Sequence) (member : source ∈ lists.filterMap id) : source ≠ made := by
    rintro rfl
    exact present made (by simpa using member) missing
  have apart : gone ≠ made := by
    rintro rfl
    rw [missing] at found
    cases found
  obtain ⟨succeeds, skips⟩ := appendSources_skips callbacks there rfl
    ((changes.others gone apart).trans found) destroyed empty differ
  have sources : (lists.filter (· ≠ some gone)).filterMap id =
      (lists.filterMap id).filter (· ≠ gone) := by
    rw [List.filter_filterMap, List.filterMap_filter]
    congr 1
    funext source
    cases source with
    | none => rfl
    | some source => by_cases same : source = gone <;> simp [same, Option.filter]
  obtain ⟨_, after, appended, _⟩ := succeeds
  have joins : Sequence.join callbacks lists options state = .ok made after :=
    (bind_ok added).trans (bind_ok appended)
  have skipping : Sequence.join callbacks (lists.filter (· ≠ some gone)) options state =
      .ok made after := by
    apply (bind_ok added).trans
    rw [sources]
    exact bind_ok (skips.symm.trans appended)
  exact ⟨⟨made, after, joins, trivial⟩, joins.trans skipping.symm⟩

omit there lives destroyed in
theorem advance_dead {traversal : Handle Traversal} {walk : Traversal}
    (there : state.containers.traversals.cell? traversal = some walk) (walks : walk.source = .list gone)
    (running : walk.phase = .running) :
    Traversal.next traversal state = .ok none (state.withTraversals
      (state.containers.traversals.modify traversal ({ · with phase := .finished }))) := by
  have checked : Traversal.requireSource traversal state = .ok () state := by
    apply (bind_ok (Traversal.state_eq there)).trans
    rw [running]
    rfl
  have counted : Traversal.itemCount walk.source state = .ok 0 state := by
    rw [walks, ← empty]
    exact bind_ok (Sequence.state_eq found)
  apply (bind_ok checked).trans
  apply (bind_ok (Traversal.state_eq there)).trans
  rw [if_neg (by simp [running])]
  apply (bind_ok counted).trans
  rw [if_neg (Nat.not_lt_zero _)]
  rfl

end Reading

section Dead

variable {host : Callbacks Diary}

/--
A list that is destroyed at a moment of a run is an empty one to what only reads from it: to append it
changes nothing, lists are joined as if it were not among them, and a traversal that was begun before it
was destroyed comes to its end.
-/
theorem destroyed_lists_read_as_empty (ordinary : host.Ordinary) (conducts : Conducts) (depth : Nat)
    (script : List Operation) :
    ∀ moment ∈ (conducts.final host depth script).outside.moments, ∀ gone dead,
      moment.lists.cell? gone = some dead → dead.destroyed = true →
        ∀ (Outside : Type) (surroundings : Surroundings Outside) (state : State Outside),
          state.containers = moment →
            (∀ list live, moment.lists.cell? list = some live → live.destroyed = false →
              perform surroundings (.appendAll list gone) state = .ok .done state) ∧
            (∀ lists options, (∀ list, some list ∈ lists → moment.lists.cell? list ≠ none) →
              Succeeds (perform surroundings (.join lists options)) state (fun _ _ => True) ∧
                perform surroundings (.join lists options) state =
                  perform surroundings (.join (lists.filter (· ≠ some gone)) options) state) ∧
            ∀ traversal walk, moment.traversals.cell? traversal = some walk →
              walk.source = .list gone → walk.phase = .running →
                perform surroundings (.advance traversal) state = .ok (.step none)
                  (state.withTraversals
                    (moment.traversals.modify traversal ({ · with phase := .finished }))) := by
  rintro moment member gone dead found destroyed Outside surroundings state rfl
  have lasting := final_lasts ordinary conducts depth script
  have steady := lasting.steady _ (List.mem_append_left _ member) gone dead found
  have empty := (steady.released destroyed).1
  refine ⟨fun list live there lives => ?_, fun lists options present => ?_,
    fun traversal walk there walks running => ?_⟩
  next =>
    exact bind_ok (appendAll_dead surroundings.toCallbacks there lives found destroyed empty)
  next =>
    obtain ⟨⟨made, after, joined, _⟩, skips⟩ :=
      join_skips surroundings.toCallbacks found destroyed empty options present
    have answers : perform surroundings (.join lists options) state = .ok (.list made) after :=
      bind_ok joined
    have skipping : perform surroundings (.join (lists.filter (· ≠ some gone)) options) state =
        .ok (.list made) after := bind_ok (skips.symm.trans joined)
    exact ⟨⟨_, _, answers, trivial⟩, answers.trans skipping.symm⟩
  next => exact bind_ok (advance_dead found empty there walks running)

theorem destroyed_lists_read_as_empty_while_walked :
    let host := Callbacks.plain Diary fun _ => compareOn Value.rank
    let surroundings := Conducts.still.quietly host
    let moments := (Conducts.still.final host 1
      [.listOf [.integer 1] {}, .listOf [.integer 2, .integer 3] {}, .traverse (.list ⟨1⟩),
        .advance ⟨0⟩, .destroy ⟨1⟩]).outside.moments
    (moments.drop 5).length = 1 ∧ ∀ moment ∈ moments.drop 5,
      let late : State Diary := { containers := moment, outside := {} }
      perform surroundings (.appendAll ⟨0⟩ ⟨1⟩) late = .ok .done late ∧
        perform surroundings (.join [some ⟨0⟩, some ⟨1⟩] {}) late =
          perform surroundings (.join [some ⟨0⟩] {}) late ∧
        perform surroundings (.advance ⟨0⟩) late = .ok (.step none) (late.withTraversals
          (moment.traversals.modify ⟨0⟩ ({ · with phase := .finished }))) := by
  intro host surroundings moments
  have facts : ∀ moment ∈ moments.drop 5,
      (moment.lists.cell? ⟨0⟩).map (·.destroyed) = some false ∧
        (moment.lists.cell? ⟨1⟩).map (·.destroyed) = some true ∧
          moment.traversals.cell? ⟨0⟩ =
            some { source := .list ⟨1⟩, position := 1, phase := .running } := by
    decide +kernel
  refine ⟨by decide +kernel, fun moment member => ?_⟩
  obtain ⟨first, second, walked⟩ := facts moment member
  obtain ⟨live, there, lives⟩ := Option.map_eq_some_iff.1 first
  obtain ⟨dead, found, destroyed⟩ := Option.map_eq_some_iff.1 second
  obtain ⟨appends, joins, walks⟩ := destroyed_lists_read_as_empty (Callbacks.plain_ordinary Diary _)
    Conducts.still 1 _ moment (List.mem_of_mem_drop member) ⟨1⟩ dead found destroyed Diary surroundings
    { containers := moment, outside := {} } rfl
  refine ⟨appends ⟨0⟩ live there lives, (joins _ {} fun list present => ?_).2, walks ⟨0⟩ _ walked rfl rfl⟩
  have either : list = ⟨0⟩ ∨ list = ⟨1⟩ := by simpa using present
  rcases either with rfl | rfl
  · simp [there]
  · simp [found]

theorem destroyed_list_not_refused :
    let host := Callbacks.plain Diary fun _ => compareOn Value.rank
    let surroundings := Conducts.still.quietly host
    let late := Conducts.still.final host 1
      [.listOf [.integer 1] {}, .listOf [.integer 2, .integer 3] {}, .traverse (.list ⟨1⟩),
        .advance ⟨0⟩, .destroy ⟨1⟩]
    let answers (operation : Operation) := (attempt (perform surroundings operation) late).1.toOption.isSome
    (late.containers.lists.get ⟨1⟩).destroyed = true ∧ answers (.appendAll ⟨0⟩ ⟨1⟩) ∧
      answers (.join [some ⟨0⟩, some ⟨1⟩] {}) ∧ answers (.advance ⟨0⟩) := by
  decide +kernel

end Dead

end Collections
