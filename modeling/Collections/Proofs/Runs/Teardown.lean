import Collections.Proofs.Runs.Releasing
import Collections.Proofs.Runs.SetOrder

set_option autoImplicit false

namespace Collections

structure Step where
  operation : Operation
  before : State Diary
  outcome : Except Failure Operation.Answer

/-- What the containers that the step has ended owed. -/
def Step.released (step : Step) : List (String × Value) :=
  match step.operation, step.outcome with
  | .destroy list, .ok _ | .destroyIfPresent (some list), .ok _ =>
      let held := step.before.containers.lists.get list
      owing held.destructor held.elements
  | .destroySet set, .ok _ =>
      let held := step.before.containers.sets.get set
      owing held.destructor held.items.toList
  | _, _ => []

def stepsOf (surroundings : Surroundings Diary) : List Operation → State Diary → List Step
  | [], _ => []
  | operation :: rest, state =>
      let ended := attempt (perform surroundings operation) state.noted
      ⟨operation, state.noted, ended.1⟩ :: stepsOf surroundings rest ended.2

theorem outcome_of_mem {surroundings : Surroundings Diary} {script : List Operation}
    {start : State Diary} {step : Step} (member : step ∈ stepsOf surroundings script start) :
    step.outcome = (attempt (perform surroundings step.operation) step.before).1 := by
  induction script generalizing start with
  | nil => cases member
  | cons operation rest ih =>
    rcases List.mem_cons.1 member with rfl | later
    · rfl
    · exact ih later

theorem stepsOf_keeps {surroundings : Surroundings Diary} {keeps : State Diary → Prop}
    (notes : Keeps keeps noteMoment) (performs : ∀ operation, Keeps keeps (perform surroundings operation))
    {script : List Operation} {start : State Diary} (kept : keeps start) {step : Step}
    (member : step ∈ stepsOf surroundings script start) : keeps step.before := by
  induction script generalizing start with
  | nil => cases member
  | cons operation rest ih =>
    have noted : keeps start.noted := notes start kept
    rcases List.mem_cons.1 member with rfl | later
    · exact noted
    · exact ih (performs operation start.noted noted).leaves later

theorem runScript_cons (surroundings : Surroundings Diary) (operation : Operation)
    (rest : List Operation) (state : State Diary) :
    runScript surroundings (operation :: rest) state =
      runScript surroundings rest (attempt (perform surroundings operation) state.noted).2 := by
  have noted : noteMoment state = .ok () state.noted := rfl
  rw [runScript, bind_ok noted]
  unfold attempt
  cases ended : perform surroundings operation state.noted with
  | ok answer after => exact bind_ok (tryCatch_ok (bind_ok ended))
  | error failure after => exact bind_ok (tryCatch_error (bind_error ended))

theorem attempt_runScript_cons (surroundings : Surroundings Diary) (operation : Operation)
    (rest : List Operation) (state : State Diary) :
    (attempt (runScript surroundings (operation :: rest)) state).2 =
      (attempt (runScript surroundings rest)
        (attempt (perform surroundings operation) state.noted).2).2 := by
  unfold attempt
  rw [runScript_cons]
  rfl

section Tracing

variable {host : Callbacks Diary} {conducts : Conducts}

theorem destructed_invariant (ordinary : host.Ordinary) (trace : List (String × Value)) :
    Invariant (conducts.quietly host) (fun _ => True) fun state => state.outside.destructed = trace :=
  conducts.unrestricted.invariant ordinary (fun _ _ _ same => same) (fun _ _ same _ => same)
    (fun same _ => ⟨trivial, same⟩) (fun _ _ same => same) (fun _ _ same => same)
    fun _ _ _ _ same => same

theorem Step.released_eq_nil {step : Step} (keeps : step.operation.tearsDown = false) :
    step.released = [] := by
  obtain ⟨operation, before, outcome⟩ := step
  cases operation <;> first | rfl | cases keeps

theorem Step.released_error (operation : Operation) (before : State Diary) (failure : Failure) :
    Step.released ⟨operation, before, .error failure⟩ = [] := by
  cases operation with
  | destroyIfPresent list => cases list <;> rfl
  | _ => rfl

theorem convertToOrderedSet_silent (ordinary : host.Ordinary) (list : Handle Sequence)
    (before : State Diary) :
    Ends (Sequence.convertToOrderedSet (conducts.quietly host).toCallbacks list) before
      (fun _ after => after.outside.destructed = before.outside.destructed)
      fun _ after => after.outside.destructed = before.outside.destructed := by
  let keeps (state : State Diary) := state.outside.destructed = before.outside.destructed
  have frame : Invariant (conducts.quietly host) (fun _ => True) keeps :=
    destructed_invariant ordinary before.outside.destructed
  have sets : IgnoresSets keeps := fun _ _ same => same
  have makes := frame.toOrderedSet list fun values => frame.setOf sets values none none
  have gives (set : Handle OrderedSet) (destructor : Option String) :
      Keeps keeps (OrderedSet.setDestructor set destructor) := Invariant.changeSet sets set _
  exact frame.trimming.convertToOrderedSet trivial makes gives before rfl

theorem perform_traces (ordinary : host.Ordinary) (releases : conducts.Releases)
    (operation : Operation) (before : State Diary) :
    Ends (perform (conducts.quietly host) operation) before
      (fun answer after => after.outside.destructed =
        before.outside.destructed ++ Step.released ⟨operation, before, .ok answer⟩)
      (fun failure after => after.outside.destructed =
        before.outside.destructed ++ Step.released ⟨operation, before, .error failure⟩) := by
  cases ends : operation.tearsDown with
  | false =>
    have frame : Invariant (conducts.quietly host) (fun _ => True)
        fun state => state.outside.destructed = before.outside.destructed :=
      destructed_invariant ordinary before.outside.destructed
    have kept := frame.perform_keeps operation (fun _ _ => trivial) (fun _ _ _ same => same)
      (by simp [ends]) before rfl
    refine kept.imp (fun _ _ same => ?_) fun _ _ same => ?_ <;>
      rw [same, Step.released_eq_nil ends, List.append_nil]
  | true =>
    -- An end that fails releases nothing, as its check comes before its walk.
    have unchanged {failure : Failure} {after : State Diary}
        (same : after.outside.destructed = before.outside.destructed) : after.outside.destructed =
          before.outside.destructed ++ Step.released ⟨operation, before, .error failure⟩ := by
      rw [same, Step.released_error, List.append_nil]
    cases operation with
    | destroy list =>
      exact ((Sequence.destroy_traces releases list before).imp (fun _ _ told => told)
        fun _ _ same => unchanged same).bind fun _ _ told => told
    | destroyIfPresent list =>
      cases list with
      | none => exact (List.append_nil _).symm
      | some list =>
        exact ((Sequence.destroy_traces releases list before).imp (fun _ _ told => told)
          fun _ _ same => unchanged same).bind fun _ _ told => told
    | destroySet set =>
      exact ((OrderedSet.destroy_traces releases set before).bind fun _ _ told =>
        Succeeds.of_pure told).ends
    | _ => cases ends

theorem runScript_traces (ordinary : host.Ordinary) (releases : conducts.Releases)
    (script : List Operation) (start : State Diary) :
    (attempt (runScript (conducts.quietly host) script) start).2.outside.destructed =
      start.outside.destructed ++
        (stepsOf (conducts.quietly host) script start).flatMap Step.released := by
  induction script generalizing start with
  | nil => exact (List.append_nil _).symm
  | cons operation rest ih =>
    have performed := perform_traces ordinary releases operation start.noted
    have continued : attempt (runScript (conducts.quietly host) (operation :: rest)) start =
        attempt (runScript (conducts.quietly host) rest)
          (attempt (perform (conducts.quietly host) operation) start.noted).2 := by
      unfold attempt
      rw [runScript_cons]
      rfl
    rw [continued, ih, stepsOf, List.flatMap_cons, ← List.append_assoc]
    congr 1
    rcases performed.attempt with ⟨_, after, ended, told⟩ | ⟨_, after, ended, told⟩ <;>
      (rw [ended]; exact told)

theorem stepsOf_ascend (ordinary : host.Ordinary) {comparator : Option ComparatorId}
    {ranking : Ranking} (ranks : (conducts.quietly host).toCallbacks.Ranks comparator ranking)
    {script : List Operation} {start : State Diary} (ascend : ranking.SetsAscend comparator start)
    (fits : ∀ step ∈ stepsOf (conducts.quietly host) script start, step.before.containers.SetsFit) :
    ∀ step ∈ stepsOf (conducts.quietly host) script start, ranking.SetsAscend comparator step.before := by
  induction script generalizing start with
  | nil => simp [stepsOf]
  | cons operation rest ih =>
    have ascend : ranking.SetsAscend comparator start.noted :=
      ascend.of_sets_eq rfl (Ordinals.le_refl start.ordinals)
    rw [stepsOf, List.forall_mem_cons] at fits ⊢
    have kept := (perform_keeps_ascending ordinary ranks operation fits.1 ascend).leaves
    exact ⟨ascend, ih kept fits.2⟩

theorem quietFinal_steady (ordinary : host.Ordinary) (script : List Operation) :
    (conducts.quietFinal host script).containers.Steady := by
  have performs (operation : Operation) :
      Keeps Lasting (perform (conducts.quietly host) operation) :=
    perform_lasts ordinary (fun _ => Lasting.note) operation
  exact (runScript_keeps Lasting.note (fun operation _ => performs operation) _ Lasting.start).leaves.now

/--
Destructors are called for what containers hold when they end, once for each element, in order, and
for nothing else. The items of sets are in the order of their comparators, while no set is too large to
be searched. A list that becomes a set ends without a call; the set owns its destructor then, and the
first element of each level.
-/
theorem destructors_run_at_teardown (ordinary : host.Ordinary) (releases : conducts.Releases)
    (script : List Operation) :
    let surroundings := conducts.quietly host
    let steps := stepsOf surroundings script { outside := {} }
    let final := conducts.quietFinal host script
    final.outside.destructed = steps.flatMap Step.released ∧
      (∀ comparator ranking, surroundings.toCallbacks.Ranks comparator ranking →
        (∀ step ∈ steps, step.before.containers.SetsFit) →
          ∀ step ∈ steps, ranking.SetsAscend comparator step.before) ∧
        ∀ list held, final.containers.lists.cell? list = some held → held.destroyed = false →
          Succeeds (Sequence.convertToOrderedSet surroundings.toCallbacks list) final fun set after =>
            after.outside.destructed = final.outside.destructed ∧
              final.containers.sets.cell? set = none ∧
                after.containers.lists.cell? list = some held.release ∧ ∃ items : Array Value,
                  after.containers.sets.cell? set = some { items, destructor := held.destructor } ∧
                    Ranking.natural.Ascends after.ordinals items.toList ∧
                      ∀ value, value ∈ items ↔ FirstOfLevel held.elements value := by
  intro surroundings steps final
  refine ⟨runScript_traces ordinary releases script _, fun comparator ranking ranks fits => ?_,
    fun list held there live => ?_⟩
  next =>
    have empty : ranking.SetsAscend comparator ({ outside := {} } : State Diary) := nofun
    exact stepsOf_ascend ordinary ranks empty fits
  next =>
    have steady := quietFinal_steady ordinary script list held there
    exact (Sequence.convertToOrderedSet_converts (quietly_ordinary ordinary) there steady live).and
      (convertToOrderedSet_silent ordinary list final) |>.imp fun _ _ told => ⟨told.2, told.1⟩

theorem destructors_run_at_teardown_after_copying :
    let host := Callbacks.plain Diary fun _ => compareOn Value.rank
    let surroundings := Conducts.still.quietly host
    let script : List Operation :=
      [.listOf [.integer 2, .null, .integer 1, .integer 2] { destructor := some "free" },
        .copy ⟨0⟩ (some "close"), .pop ⟨0⟩, .emptySet none (some "drop"), .destroy ⟨0⟩, .destroy ⟨0⟩]
    let steps := stepsOf surroundings script { outside := {} }
    let final := Conducts.still.quietFinal host script
    final.outside.destructed = steps.flatMap Step.released ∧
      steps.flatMap Step.released = [("free", .integer 2), ("free", .integer 1)] ∧
        (∀ step ∈ steps, Ranking.natural.SetsAscend none step.before) ∧
          Succeeds (Sequence.convertToOrderedSet surroundings.toCallbacks ⟨1⟩) final fun set after =>
            after.outside.destructed = final.outside.destructed ∧ ∃ items : Array Value,
              .integer 2 ∈ items ∧
                after.containers.sets.cell? set = some { items, destructor := some "close" } := by
  intro host surroundings script steps final
  have ordinary : host.Ordinary := Callbacks.plain_ordinary Diary _
  have releases : Conducts.still.Releases := fun _ _ _ => rfl
  have told := destructors_run_at_teardown ordinary releases script
  have released : steps.flatMap Step.released = [("free", .integer 2), ("free", .integer 1)] := by
    decide +kernel
  have small : steps.all fun step => step.before.containers.sets.cells.all
      fun held => held.items.size ≤ 1 <<< 31 := by decide +kernel
  have copied : (final.containers.lists.cell? ⟨1⟩).map
      (fun held => (held.destroyed, held.destructor, held.elements.head?)) =
        some (false, some "close", some (.integer 2)) := by decide +kernel
  -- Written out, the runs on both sides are the same text, and need not be evaluated to be compared.
  dsimp only [host, surroundings, script, steps, final] at told released small copied ⊢
  refine ⟨told.1, released, told.2.1 none .natural (Callbacks.naturalOrder_ranks _) ?_, ?_⟩
  next =>
    intro step member set held there
    have fits := Array.all_eq_true_iff_forall_mem.1 (List.all_eq_true.1 small step member)
    simpa using fits held (Array.mem_of_getElem? there)
  next =>
    obtain ⟨held, there, shown⟩ := Option.map_eq_some_iff.1 copied
    obtain ⟨live, owns, first⟩ : held.destroyed = false ∧ held.destructor = some "close" ∧
      held.elements.head? = some (.integer 2) := by simpa using shown
    refine (told.2.2 ⟨1⟩ held there live).imp fun set after told => ⟨told.1, ?_⟩
    obtain ⟨_, _, _, items, owned, _, firsts⟩ := told
    obtain ⟨later, whole⟩ := List.head?_eq_some_iff.1 first
    exact ⟨items, (firsts _).2 ⟨[], later, whole, by simp⟩, owns ▸ owned⟩

end Tracing

end Collections
