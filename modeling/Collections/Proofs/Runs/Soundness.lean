import Collections.Proofs.Sequence.Soundness

set_option autoImplicit false

namespace Collections

namespace Containers

def Sound (moment : Containers) : Prop :=
  ∀ list held, moment.lists.cell? list = some held → held.Sound

def Outlasts (late early : Containers) : Prop :=
  ∀ list held, early.lists.cell? list = some held → held.destroyed = true →
    ∃ kept, late.lists.cell? list = some kept ∧ kept.destroyed = true

def Steady (moment : Containers) : Prop :=
  ∀ list held, moment.lists.cell? list = some held → held.Steady

def Every (fits : Sequence → Prop) (moment : Containers) : Prop :=
  ∀ list held, moment.lists.cell? list = some held → fits held

variable {moment first second third : Containers} {list : Handle Sequence} {fits : Sequence → Prop}

namespace Every

theorem modify (every : moment.Every fits) {step : Sequence → Sequence}
    (edit : ∀ held, moment.lists.cell? list = some held → fits held → fits (step held)) :
    ({ moment with lists := moment.lists.modify list step } : Containers).Every fits := by
  intro other held there
  dsimp only at there
  rw [Table.cell?_modify] at there
  split at there
  next same =>
    subst same
    obtain ⟨earlier, was, rfl⟩ := Option.map_eq_some_iff.1 there
    exact edit earlier was (every _ earlier was)
  next => exact every other held there

theorem add (every : moment.Every fits) {made : Sequence} (suits : fits made) :
    ({ moment with lists := (moment.lists.add made).1 } : Containers).Every fits := by
  intro other held there
  dsimp only at there
  rw [Table.cell?_add] at there
  split at there
  next =>
    cases there
    exact suits
  next => exact every other held there

end Every

theorem Steady.modify (steady : moment.Steady) {step : Sequence → Sequence}
    (edit : ∀ held, moment.lists.cell? list = some held → held.Edit (step held)) :
    ({ moment with lists := moment.lists.modify list step } : Containers).Steady :=
  Every.modify steady fun held there => (edit held there).steady

theorem Steady.add (steady : moment.Steady) {made : Sequence} (fresh : made.Fresh) :
    ({ moment with lists := (moment.lists.add made).1 } : Containers).Steady :=
  Every.add steady fresh.steady

theorem Outlasts.refl (moment : Containers) : moment.Outlasts moment :=
  fun _ held there destroyed => ⟨held, there, destroyed⟩

theorem Outlasts.trans (late : third.Outlasts second) (early : second.Outlasts first) :
    third.Outlasts first := by
  intro list held there destroyed
  obtain ⟨kept, there, destroyed⟩ := early list held there destroyed
  exact late list kept there destroyed

end Containers

def State.Chained (related : Containers → Containers → Prop) (state : State Diary) : Prop :=
  (state.outside.moments ++ [state.containers]).Pairwise related

namespace State.Chained

variable {related : Containers → Containers → Prop} {state after : State Diary}

theorem start : ({ outside := {} } : State Diary).Chained related := List.pairwise_singleton _ _

theorem becomes (trans : ∀ first second third, related first second → related second third →
      related first third)
    (chained : state.Chained related) (step : related state.containers after.containers)
    (same : after.outside.moments = state.outside.moments) : after.Chained related := by
  obtain ⟨earlier, _, last⟩ := List.pairwise_append.1 chained
  unfold State.Chained
  rw [same, List.pairwise_append]
  refine ⟨earlier, List.pairwise_singleton _ _, fun moment member now held => ?_⟩
  rw [List.mem_singleton.1 held]
  exact trans moment _ _ (last moment member _ (by simp)) step

theorem note (refl : ∀ moment, related moment moment) : Keeps (State.Chained related) noteMoment := by
  intro before chained
  refine List.pairwise_append.2 ⟨chained, List.pairwise_singleton _ _, fun moment member now held => ?_⟩
  rw [List.mem_singleton.1 held]
  rcases List.mem_append.1 member with noted | here
  · exact (List.pairwise_append.1 chained).2.2 moment noted before.containers (by simp)
  · exact List.mem_singleton.1 here ▸ refl _

theorem moments (chained : state.Chained related) : state.outside.moments.Pairwise related :=
  (List.pairwise_append.1 chained).1

end State.Chained

def State.Always (fits : Sequence → Prop) (state : State Diary) : Prop :=
  ∀ moment ∈ state.outside.moments ++ [state.containers], moment.Every fits

namespace State.Always

variable {fits : Sequence → Prop} {state after : State Diary} {list : Handle Sequence}

theorem start : ({ outside := {} } : State Diary).Always fits := by
  simp [State.Always, Containers.Every, Table.cell?]

theorem now (always : state.Always fits) : state.containers.Every fits := always _ (by simp)

theorem becomes (always : state.Always fits) (now : after.containers.Every fits)
    (same : after.outside.moments = state.outside.moments) : after.Always fits := by
  intro moment member
  rw [same] at member
  rcases List.mem_append.1 member with before | last
  · exact always moment (List.mem_append_left _ before)
  · exact List.mem_singleton.1 last ▸ now

theorem note : Keeps (State.Always fits) noteMoment := by
  intro before always moment member
  rcases List.mem_append.1 member with noted | last
  · exact always moment noted
  · exact List.mem_singleton.1 last ▸ always.now

theorem edits (always : state.Always fits) {step : Sequence → Sequence}
    (edit : ∀ held, state.containers.lists.cell? list = some held → fits held → fits (step held)) :
    (state.withLists (state.containers.lists.modify list step)).Always fits :=
  always.becomes (always.now.modify edit) rfl

theorem creates (always : state.Always fits) {made : Sequence} (suits : fits made) :
    (state.withLists (state.containers.lists.add made).1).Always fits :=
  always.becomes (always.now.add suits) rfl

end State.Always

-- The lists have been sound all the time, and what was destroyed has stayed so.
structure Lasting (state : State Diary) : Prop where
  steady : ∀ moment ∈ state.outside.moments ++ [state.containers], moment.Steady
  outlasts : state.Chained fun early late => late.Outlasts early

namespace Lasting

variable {state after : State Diary} {list : Handle Sequence}

theorem always (lasting : Lasting state) : state.Always Sequence.Steady := lasting.steady

theorem start : Lasting { outside := {} } := ⟨State.Always.start, .start⟩

theorem now (lasting : Lasting state) : state.containers.Steady := lasting.always.now

theorem becomes (lasting : Lasting state) (steady : after.containers.Steady)
    (outlasts : after.containers.Outlasts state.containers)
    (same : after.outside.moments = state.outside.moments) : Lasting after where
  steady := lasting.always.becomes steady same
  outlasts := lasting.outlasts.becomes (fun _ _ _ early late => late.trans early) outlasts same

theorem note : Keeps Lasting noteMoment := by
  have chains : Keeps (State.Chained fun early late => late.Outlasts early) noteMoment :=
    State.Chained.note Containers.Outlasts.refl
  exact fun before lasting => ⟨State.Always.note before lasting.always, chains before lasting.outlasts⟩

theorem edits (step : Sequence → Sequence) (lasting : Lasting state)
    (edit : ∀ held, state.containers.lists.cell? list = some held → held.Edit (step held)) :
    Lasting (state.withLists (state.containers.lists.modify list step)) := by
  refine lasting.becomes (lasting.now.modify edit) (fun other held there destroyed => ?_) rfl
  dsimp only
  rw [Table.cell?_modify]
  split
  next same =>
    subst same
    exact ⟨step held, by rw [there]; rfl, (edit held there).destroyed destroyed⟩
  next => exact ⟨held, there, destroyed⟩

theorem creates {made : Sequence} (lasting : Lasting state) (fresh : made.Fresh) :
    Lasting (state.withLists (state.containers.lists.add made).1) := by
  refine lasting.becomes (lasting.now.add fresh) (fun other held there destroyed => ?_) rfl
  exact ⟨held, Table.cell?_add_of_there there made, destroyed⟩

end Lasting

variable {host : Callbacks Diary} {conducts : Conducts}

theorem lasting_invariant (ordinary : host.Ordinary) {run : List Operation → Action Diary Unit}
    (runs : ∀ script, Keeps Lasting (run script)) :
    Invariant (conducts.surroundings host run) (fun _ => True) Lasting :=
  conducts.unrestricted.invariant ordinary (fun script _ => runs script) (fun step _ => Lasting.edits step)
    (fun lasting fresh => ⟨trivial, lasting.creates fresh⟩)
    (fun _ _ lasting => lasting.becomes lasting.now (.refl _) rfl)
    (fun _ _ lasting => lasting.becomes lasting.now (.refl _) rfl)
    fun _ _ _ _ lasting => lasting.becomes lasting.now (.refl _) rfl

theorem perform_lasts (ordinary : host.Ordinary) {run : List Operation → Action Diary Unit}
    (runs : ∀ script, Keeps Lasting (run script)) (operation : Operation) :
    Keeps Lasting (perform (conducts.surroundings host run) operation) := by
  refine (lasting_invariant ordinary runs).perform_keeps operation (fun _ _ => trivial) ?_ fun _ => ?_
  next => exact fun _ _ _ lasting => lasting.becomes lasting.now (.refl _) rfl
  next =>
    exact destruct_keeps (fun _ lasting => lasting.becomes lasting.now (.refl _) rfl)
      (fun _ _ _ lasting => lasting.becomes lasting.now (.refl _) rfl) runs

theorem final_lasts (ordinary : host.Ordinary) (conducts : Conducts) (depth : Nat)
    (script : List Operation) : Lasting (conducts.final host depth script) :=
  final_keeps Lasting.note (fun _ runs => perform_lasts ordinary runs) Lasting.start depth script

theorem below_breaks {run : List Operation → Action Diary Unit} {comparator : ComparatorId}
    {left right : Value} {early late : State Diary} {failure : Failure}
    (broke : (conducts.surroundings host run).below (some comparator) left right early =
      .error failure late) :
    (conducts.surroundings host run).compare comparator left right early = .error failure late := by
  -- What a comparator answers is a number, so that to read its sign does not fail.
  have numbers : Ends ((conducts.surroundings host run).compare comparator left right) early
      (fun reply _ => reply.integer = false) fun _ _ => True :=
    (Yields.of_any (act run (conducts.compare · comparator left right)) early).bind
      fun order _ _ => rfl
  cases answered : (conducts.surroundings host run).compare comparator left right early with
  | ok reply middle =>
    have number : reply.integer = false := by simpa only [Ends, answered] using numbers
    have tested : (conducts.surroundings host run).below (some comparator) left right early =
        resultOf reply.sortsBelow middle := bind_ok answered
    rw [tested, Reply.sortsBelow, number] at broke
    cases broke
  | error reason middle =>
    have tested : (conducts.surroundings host run).below (some comparator) left right early =
        .error reason middle := bind_error answered
    rw [tested] at broke
    cases broke
    rfl

/--
At every moment all lists are sound, and none is live again that was destroyed. What is copied out of a
list at that moment is all its elements, and to sort it fails only as the comparator fails.
-/
theorem lists_stay_sound (ordinary : host.Ordinary) (conducts : Conducts) (depth : Nat)
    (script : List Operation) :
    (conducts.final host depth script).outside.moments.Pairwise
        (fun early late => late.Outlasts early) ∧
      ∀ moment ∈ (conducts.final host depth script).outside.moments, moment.Sound ∧
        ∀ (others : Conducts) (run : List Operation → Action Diary Unit) (state : State Diary) list held,
          state.containers = moment → moment.lists.cell? list = some held →
            Succeeds (Sequence.copyOut (others.surroundings host run).toCallbacks list) state
                (fun copied after => after = state ∧ copied = held.elements.map some) ∧
              (held.destroyed = false → ∀ comparator,
                Ends (Sequence.sort (others.surroundings host run).toCallbacks list (some comparator))
                  state (fun _ _ => True)
                  fun failure _ => ∃ left right early late,
                    (others.surroundings host run).compare comparator left right early =
                      .error failure late) := by
  have lasting := final_lasts ordinary conducts depth script
  refine ⟨lasting.outlasts.moments, fun moment member => ?_⟩
  have steady := lasting.steady moment (List.mem_append_left _ member)
  refine ⟨fun list held there => (steady list held there).sound, ?_⟩
  rintro others run state list held rfl there
  have steady := steady list held there
  have ordinary : (others.surroundings host run).toCallbacks.Ordinary :=
    ⟨ordinary.looks, ordinary.requires, ordinary.assigns, ordinary.copies⟩
  refine ⟨Sequence.copyOut_all ordinary there steady, fun live comparator => ?_⟩
  refine (Sequence.sort_ends ordinary comparator there steady live).imp (fun _ _ _ => trivial) ?_
  rintro failure _ ⟨left, right, early, late, broke⟩
  exact ⟨left, right, early, late, below_breaks broke⟩

theorem lists_stay_sound_while_popped :
    let popping : Conducts := { Conducts.still with
      destruct := fun _ _ _ => { script := [.pop ⟨0⟩], outcome := .error (.thrown "busy") } }
    let moments := (popping.final (Callbacks.plain Diary fun _ => compareOn Value.rank) 2
      [.listOf [.integer 1, .integer 2] { destructor := some "free" }, .destroy ⟨0⟩,
        .destroy ⟨0⟩]).outside.moments
    moments.map (fun moment => moment.lists.cells.toList.map Sequence.length) =
        [[], [2], [2], [1], [1], [1], [0], [0]] ∧
      ∀ moment ∈ moments, moment.Sound := by
  intro popping moments
  refine ⟨by decide +kernel, fun moment member => ?_⟩
  exact ((lists_stay_sound (Callbacks.plain_ordinary Diary _) popping 2 _).2 moment member).1

end Collections
