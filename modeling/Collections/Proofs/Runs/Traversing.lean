import Mathlib.Data.List.Induction
import Collections.Proofs.Runs.Cursors
import Collections.Proofs.Runs.Finality
import Collections.Proofs.Runs.Teardown
import Collections.Proofs.Usage

set_option autoImplicit false

namespace Collections

variable {Outside : Type} {traversal : Handle Traversal} {walk : Traversal}

def TraversalSource.snapshot : TraversalSource → Operation
  | .list held => .toList held
  | .set held => .itemsOf held

namespace Containers

def itemsOf (moment : Containers) : TraversalSource → List Value
  | .list list => moment.elementsOf list
  | .set set => (moment.sets.get set).items.toList

def lacks (moment : Containers) : TraversalSource → Bool
  | .list list => (moment.lists.get list).destroyed
  | .set _ => false

theorem Steady.itemsOf_eq_nil {moment : Containers} (steady : moment.Steady) {source : TraversalSource}
    (lacking : moment.lacks source = true) : moment.itemsOf source = [] := by
  cases source with
  | list list => exact steady.elements_eq_nil lacking
  | set set => cases lacking

end Containers

section Wholes

variable {surroundings : Surroundings Outside} {state : State Outside} {source : TraversalSource}

theorem snapshot_eq (ordinary : surroundings.Ordinary) (steady : state.containers.Steady)
    (present : state.containers.lacks source = false) :
    perform surroundings source.snapshot state =
      .ok (.items (state.containers.itemsOf source)) state := by
  cases source with
  | set set => rfl
  | list list =>
    have live : (state.containers.lists.get list).destroyed = false := present
    have there := Sequence.there_of_live live
    obtain ⟨_, _, answered, unchanged, rfl⟩ := Sequence.copyOut_all ordinary there (steady.get list)
    rw [unchanged] at answered
    have listed : Sequence.toList surroundings.toCallbacks list state =
        .ok (state.containers.elementsOf list) state := by
      refine (bind_ok (Sequence.requireLive_eq there live .toList)).trans ((bind_ok answered).trans ?_)
      rw [List.map_map]
      exact congrArg (EStateM.Result.ok · state) (List.map_id _)
    exact bind_ok listed

theorem append_extends_items (surroundings : Surroundings Outside) (list : Handle Sequence)
    (value : Value) (moment : Containers) (source : TraversalSource) :
    Keeps (fun state => moment.itemsOf source <+: state.containers.itemsOf source)
      (Sequence.append surroundings.toCallbacks list value) := by
  intro before begins
  cases live : (before.containers.lists.get list).destroyed with
  | true =>
    have refused : Refused (Sequence.append surroundings.toCallbacks list value) before .append :=
      (requireLive_refused live .append).bind
    unfold Refused at refused
    unfold Ends
    rwa [refused]
  | false =>
    have there := Sequence.there_of_live live
    refine ((Sequence.append_extends surroundings.toCallbacks there live value).imp
      fun _ after ⟨⟨changes, extended⟩, _⟩ => begins.trans ?_).ends
    cases source with
    | set set =>
      simp only [Containers.itemsOf, changes.sets]
      exact List.prefix_rfl
    | list other =>
      simp only [Containers.itemsOf, Containers.elementsOf]
      by_cases own : other = list
      next =>
        rw [own, Table.get_of_cell? extended, Sequence.elements_extend]
        exact List.prefix_append _ _
      next =>
        simp only [changes.get_eq own]
        exact List.prefix_rfl

end Wholes

def State.walked (state : State Outside) (traversal : Handle Traversal) (walk : Traversal) :
    State Outside :=
  state.withTraversals (state.containers.traversals.modify traversal fun _ => walk)

def Conducts.stepsWithin (conducts : Conducts) (host : Callbacks Diary) :
    Nat → List Operation → State Diary → List Step
  | 0, _, _ => []
  | depth + 1, script, start =>
      stepsOf (conducts.surroundings host (conducts.runWithin host depth)) script start

namespace Traversal

-- What a step of a traversal answers, and what it makes of the traversal.
def stepped (walk : Traversal) (moment : Containers) : Except Failure (Option Value) × Traversal :=
  if walk.phase = .finished then (.ok none, walk)
  else
    match (moment.itemsOf walk.source)[walk.position]? with
    | some item => (.ok (some item), { walk with position := walk.position + 1, phase := .running })
    | none =>
        (if walk.phase = .fresh ∧ moment.lacks walk.source then .error (.list (.destroyed .traverse))
          else .ok none,
          { walk with phase := .finished })

section Stepping

variable {state : State Outside}

theorem itemCount_eq (source : TraversalSource) (state : State Outside) :
    itemCount source state = .ok (state.containers.itemsOf source).length state := by
  cases source with
  | list list =>
    rw [Containers.itemsOf, Containers.length_elementsOf]
    rfl
  | set set => rfl

theorem item_eq {source : TraversalSource} {position : Nat} {element : Value}
    (found : (state.containers.itemsOf source)[position]? = some element) :
    item source position state = .ok element state := by
  obtain ⟨inside, rfl⟩ := List.getElem?_eq_some_iff.1 found
  cases source with
  | list list =>
    simp only [Containers.itemsOf, Containers.elementsOf, Sequence.elements, Storage.valuesFrom,
      List.getElem_map, List.getElem_range', Nat.zero_add, Nat.one_mul]
    rfl
  | set set =>
    have read : (state.containers.sets.get set).item position =
        (state.containers.itemsOf (.set set))[position] := by
      simp only [Containers.itemsOf, Array.length_toList] at inside ⊢
      simp [OrderedSet.item, Array.getD, inside]
    rw [← read]
    rfl

theorem next_missing (missing : state.containers.traversals.cell? traversal = none) :
    next traversal state = .ok none state := by
  -- What is read for a missing traversal is a finished one.
  have found : Traversal.state traversal state = .ok default state := by
    rw [← Table.get_of_cell?_eq_none missing]
    rfl
  have checked : requireSource traversal state = .ok () state := bind_ok found
  exact (bind_ok checked).trans (bind_ok found)

variable (there : state.containers.traversals.cell? traversal = some walk)

include there

theorem modify_walked (step : Traversal → Traversal) :
    state.withTraversals (state.containers.traversals.modify traversal step) =
      state.walked traversal (step walk) :=
  congrArg state.withTraversals (Table.modify_congr there rfl)

theorem walked_self : state.walked traversal walk = state :=
  congrArg state.withTraversals (Table.modify_self there rfl)

theorem requireSource_passes
    (passes : ¬(walk.phase = .fresh ∧ state.containers.lacks walk.source = true)) :
    requireSource traversal state = .ok () state := by
  apply (bind_ok (state_eq there)).trans
  obtain ⟨source, position, phase⟩ := walk
  cases source with
  | set set => cases phase <;> rfl
  | list list =>
    cases phase with
    | running => rfl
    | finished => rfl
    | fresh =>
      have live : ¬(state.containers.lists.get list).destroyed = true := fun gone => passes ⟨rfl, gone⟩
      change (if (state.containers.lists.get list).destroyed then _ else pure () :
        Action Outside Unit) state = _
      rw [if_neg live]
      rfl

theorem next_eq (passes : ¬(walk.phase = .fresh ∧ state.containers.lacks walk.source = true)) :
    next traversal state = (if walk.phase = .finished then pure none
      else if walk.position < (state.containers.itemsOf walk.source).length then do
        change traversal ({ · with position := walk.position + 1, phase := .running })
        return some (← item walk.source walk.position)
      else do
        finish traversal
        return none : Action Outside (Option Value)) state := by
  refine (bind_ok (requireSource_passes there passes)).trans ((bind_ok (state_eq there)).trans ?_)
  split
  next => rfl
  next => exact bind_ok (itemCount_eq walk.source state)

theorem attempt_refused (steady : state.containers.Steady)
    (refused : walk.phase = .fresh ∧ state.containers.lacks walk.source = true) :
    attempt (next traversal) state =
      ((walk.stepped state.containers).1,
        state.walked traversal (walk.stepped state.containers).2) := by
  obtain ⟨fresh, lacking⟩ := refused
  have told : walk.stepped state.containers =
      (.error (.list (.destroyed .traverse)), { walk with phase := .finished }) := by
    simp [stepped, fresh, steady.itemsOf_eq_nil lacking, lacking]
  cases source : walk.source with
  | set set =>
    rw [source] at lacking
    cases lacking
  | list list =>
    rw [source] at lacking
    have halts := next_halts lacking there source fresh
    unfold Halts at halts
    rw [told, ← modify_walked there ({ · with phase := .finished })]
    simp only [attempt, halts]

theorem attempt_next (steady : state.containers.Steady) :
    attempt (next traversal) state =
      ((walk.stepped state.containers).1,
        state.walked traversal (walk.stepped state.containers).2) := by
  by_cases refused : walk.phase = .fresh ∧ state.containers.lacks walk.source = true
  next => exact attempt_refused there steady refused
  have known := next_eq there refused
  by_cases finished : walk.phase = .finished
  next =>
    have told : walk.stepped state.containers = (.ok none, walk) := if_pos finished
    have answered : next traversal state = .ok none state := known.trans (by rw [if_pos finished]; rfl)
    rw [told, walked_self there]
    simp only [attempt, answered]
  rw [if_neg finished] at known
  cases found : (state.containers.itemsOf walk.source)[walk.position]? with
  | some element =>
    have told : walk.stepped state.containers = (.ok (some element),
        { walk with position := walk.position + 1, phase := .running }) := by
      simp [stepped, finished, found]
    rw [if_pos (List.getElem?_eq_some_iff.1 found).1] at known
    have answered := known.trans ((bind_ok rfl).trans (bind_ok (item_eq found)))
    rw [told, ← modify_walked there ({ · with position := walk.position + 1, phase := .running })]
    simp only [attempt, answered]
    rfl
  | none =>
    have told : walk.stepped state.containers = (.ok none, { walk with phase := .finished }) := by
      simp [stepped, finished, found, refused]
    rw [if_neg (Nat.not_lt_of_le (List.getElem?_eq_none_iff.1 found))] at known
    have answered := known.trans (bind_ok rfl)
    rw [told, ← modify_walked there ({ · with phase := .finished })]
    simp only [attempt, answered]
    rfl

end Stepping

section Visits

inductive Act where
  | advance
  | finish
  deriving DecidableEq

structure Visit where
  traversal : Handle Traversal
  act : Act
  met : Containers

abbrev Visited := Event Visit (Option Value)

def yielded? (event : Visited) : Option Value := event.outcome.toOption.join

def visitsOf (traversal : Handle Traversal) (history : List Visited) : List Visited :=
  history.filter fun event => event.command.traversal = traversal

/--
What a traversal that has gone through earlier visits answers. As long as each of them has yielded an
item, the next step yields the item whose position is their number; if there is none, or when the
traversal is given up, it is over.
-/
def due (source : TraversalSource) (earlier : List Visited) (visit : Visit) :
    Except Failure (Option Value) :=
  if visit.act = .advance ∧ ∀ event ∈ earlier, (yielded? event).isSome then
    match (visit.met.itemsOf source)[earlier.length]? with
    | some item => .ok (some item)
    | none =>
        if earlier.isEmpty ∧ visit.met.lacks source then .error (.list (.destroyed .traverse))
        else .ok none
  else .ok none

def Follows (source : TraversalSource) (visits : List Visited) : Prop :=
  ∀ earlier event later, visits = earlier ++ event :: later →
    event.outcome = due source earlier event.command

def visited (walk : Traversal) (act : Act) (moment : Containers) :
    Except Failure (Option Value) × Traversal :=
  match act with
  | .advance => walk.stepped moment
  | .finish => (.ok none, { walk with phase := .finished })

structure Accounts (walk : Traversal) (visits : List Visited) : Prop where
  goes : walk.phase ≠ .finished ↔ ∀ event ∈ visits, (yielded? event).isSome
  fresh : walk.phase = .fresh ↔ visits = []
  position : walk.phase ≠ .finished → walk.position = visits.length

variable {visits : List Visited} {event : Visited}

theorem visitsOf_concat (history : List Visited) (event : Visited) :
    visitsOf traversal (history ++ [event]) =
      if event.command.traversal = traversal then visitsOf traversal history ++ [event]
      else visitsOf traversal history := by
  unfold visitsOf
  rw [List.filter_append]
  split <;> simp_all

theorem Follows.nil (source : TraversalSource) : Follows source [] := by
  intro earlier event later split
  simp at split

theorem Follows.concat {source : TraversalSource} (follows : Follows source visits)
    (answers : event.outcome = due source visits event.command) :
    Follows source (visits ++ [event]) := by
  intro earlier other later split
  -- The event is the new one, or there were as many before it when it was not the last.
  rcases List.eq_nil_or_concat later with rfl | ⟨front, last, rfl⟩
  next =>
    obtain ⟨rfl, same⟩ := List.append_inj' split rfl
    cases same
    exact answers
  next =>
    rw [List.concat_eq_append, ← List.cons_append, ← List.append_assoc] at split
    obtain ⟨rfl, _⟩ := List.append_inj' split rfl
    exact follows earlier other front rfl

theorem visited_source (walk : Traversal) (act : Act) (moment : Containers) :
    (walk.visited act moment).2.source = walk.source := by
  unfold visited stepped
  split
  · split
    · rfl
    · split <;> rfl
  · rfl

namespace Accounts

theorem start (source : TraversalSource) : Accounts { source } [] := ⟨by simp, by simp, by simp⟩

theorem ends (ended : yielded? event = none) :
    ({ walk with phase := .finished } : Traversal).Accounts (visits ++ [event]) :=
  ⟨by simp [ended], by simp, by simp⟩

variable (accounts : walk.Accounts visits)

include accounts

theorem answers (visit : Visit) :
    (walk.visited visit.act visit.met).1 = due walk.source visits visit := by
  obtain ⟨traversal, act, met⟩ := visit
  cases act with
  | finish => rfl
  | advance =>
    unfold visited stepped due
    by_cases finished : walk.phase = .finished
    next =>
      have ended := mt accounts.goes.2 (by simp [finished])
      simp [finished, ended]
    next =>
      have going : Act.advance = .advance ∧ ∀ event ∈ visits, (yielded? event).isSome :=
        ⟨rfl, accounts.goes.1 finished⟩
      dsimp only
      rw [if_neg finished, if_pos going, accounts.position finished]
      cases (met.itemsOf walk.source)[visits.length]? with
      | some item => rfl
      | none => simp [accounts.fresh]

theorem visit (visit : Visit) :
    (walk.visited visit.act visit.met).2.Accounts
      (visits ++ [⟨visit, (walk.visited visit.act visit.met).1⟩]) := by
  obtain ⟨traversal, act, met⟩ := visit
  cases act with
  | finish => exact ends rfl
  | advance =>
    unfold visited stepped
    by_cases finished : walk.phase = .finished
    next =>
      -- It has been over before, so the step changes nothing.
      have stays : { walk with phase := .finished } = walk := by rw [← finished]
      dsimp only
      rw [if_pos finished]
      exact stays ▸ ends rfl
    next =>
      dsimp only
      rw [if_neg finished]
      cases (met.itemsOf walk.source)[walk.position]? with
      | none =>
        refine ends ?_
        dsimp only [yielded?]
        split <;> rfl
      | some item =>
        have going := accounts.goes.1 finished
        have yields : yielded? ⟨⟨traversal, .advance, met⟩, .ok (some item)⟩ = some item := rfl
        refine ⟨by simpa [yields, or_imp, forall_and] using going, by simp, fun _ => ?_⟩
        rw [List.length_append, List.length_singleton, ← accounts.position finished]

end Accounts

end Visits

section Walking

-- Traversals stand where they stood, and others may have been begun.
def Undisturbed (early late : Containers) : Prop :=
  ∀ traversal, late.traversals.cell? traversal = early.traversals.cell? traversal ∨
    early.traversals.cell? traversal = none ∧
      ∃ source, late.traversals.cell? traversal = some { source }

def Visit.perform (visit : Visit) : Action Outside (Option Value) :=
  match visit.act with
  | .advance => next visit.traversal
  | .finish => do
      finish visit.traversal
      return none

/-- Traversals are advanced and given up, and meanwhile anything is done to containers. -/
def walking (Outside : Type) : Usage Outside Visit (Option Value) where
  perform := Visit.perform
  Counts visit before _ _ :=
    visit.met = before.containers ∧ before.containers.traversals.cell? visit.traversal ≠ none
  Between before after := after.containers.Steady ∧ Undisturbed before.containers after.containers

variable {state before after : State Outside} {history : List Visited}

theorem attempt_finish (traversal : Handle Traversal) (met : Containers) (state : State Outside) :
    attempt (Visit.perform ⟨traversal, .finish, met⟩) state =
      (.ok none, state.withTraversals
        (state.containers.traversals.modify traversal ({ · with phase := .finished }))) := by
  have given : (Visit.perform ⟨traversal, .finish, met⟩ : Action Outside (Option Value)) state =
      .ok none (state.withTraversals
        (state.containers.traversals.modify traversal ({ · with phase := .finished }))) := bind_ok rfl
  simp only [attempt, given]

theorem attempt_visit {visit : Visit} (steady : state.containers.Steady)
    (there : state.containers.traversals.cell? visit.traversal = some walk) :
    attempt visit.perform state =
      ((walk.visited visit.act state.containers).1,
        state.walked visit.traversal (walk.visited visit.act state.containers).2) := by
  obtain ⟨traversal, act, met⟩ := visit
  cases act with
  | advance => exact attempt_next there steady
  | finish =>
    dsimp only [visited]
    rw [attempt_finish, ← modify_walked there ({ · with phase := .finished })]

theorem cell?_walked (there : state.containers.traversals.cell? traversal = some walk)
    (stands : Traversal) (other : Handle Traversal) :
    (state.walked traversal stands).containers.traversals.cell? other =
      if other = traversal then some stands else state.containers.traversals.cell? other := by
  dsimp only [State.walked]
  rw [Table.cell?_modify]
  split
  next same => rw [same, there]; rfl
  next => rfl

structure Recorded (history : List Visited) (state : State Outside) : Prop where
  steady : state.containers.Steady
  met : ∀ event ∈ history, event.command.met.Steady ∧
    state.containers.traversals.cell? event.command.traversal ≠ none
  accounts : ∀ traversal walk, state.containers.traversals.cell? traversal = some walk →
    walk.Accounts (visitsOf traversal history)
  follows : ∀ traversal walk, state.containers.traversals.cell? traversal = some walk →
    Follows walk.source (visitsOf traversal history)

namespace Recorded

theorem start (outside : Outside) : Recorded [] { outside } := by
  constructor <;> simp [Containers.Steady, Table.cell?]

theorem visited (recorded : Recorded history before) {visit : Visit}
    {outcome : Except Failure (Option Value)}
    (done : attempt visit.perform before = (outcome, after)) (met : visit.met = before.containers)
    (present : before.containers.traversals.cell? visit.traversal ≠ none) :
    Recorded (history ++ [⟨visit, outcome⟩]) after := by
  obtain ⟨walk, there⟩ := Option.ne_none_iff_exists'.1 present
  rw [attempt_visit recorded.steady there, ← met, Prod.mk.injEq] at done
  obtain ⟨rfl, rfl⟩ := done
  have accounts := recorded.accounts _ walk there
  have follows := recorded.follows _ walk there
  -- Only the visited traversal stands elsewhere now, and only it has one visit more.
  refine ⟨recorded.steady, fun event member => ?_, fun traversal held found => ?_,
    fun traversal held found => ?_⟩
  next =>
    rw [cell?_walked there]
    rcases List.mem_append.1 member with earlier | now
    next =>
      refine ⟨(recorded.met event earlier).1, ?_⟩
      split
      · simp
      · exact (recorded.met event earlier).2
    next =>
      obtain rfl := List.mem_singleton.1 now
      exact ⟨met ▸ recorded.steady, by simp⟩
  all_goals
    rw [cell?_walked there] at found
    rw [visitsOf_concat]
    split at found
  next same =>
    cases found
    rw [if_pos same.symm, same]
    exact accounts.visit visit
  next differ =>
    rw [if_neg (Ne.symm differ)]
    exact recorded.accounts traversal held found
  next same =>
    cases found
    rw [if_pos same.symm, same, visited_source]
    exact follows.concat (accounts.answers visit)
  next differ =>
    rw [if_neg (Ne.symm differ)]
    exact recorded.follows traversal held found

theorem meanwhile (recorded : Recorded history before) (steady : after.containers.Steady)
    (undisturbed : Undisturbed before.containers after.containers) : Recorded history after := by
  -- A traversal that is new has not been visited, since all that were are there.
  have unvisited (traversal : Handle Traversal)
      (missing : before.containers.traversals.cell? traversal = none) :
      visitsOf traversal history = [] := by
    refine List.filter_eq_nil_iff.2 fun event member same => ?_
    exact (recorded.met event member).2 (of_decide_eq_true same ▸ missing)
  refine ⟨steady, fun event member => ?_, fun traversal walk there => ?_, fun traversal walk there => ?_⟩
  next =>
    obtain ⟨met, present⟩ := recorded.met event member
    rcases undisturbed event.command.traversal with same | ⟨_, source, begun⟩
    · exact ⟨met, same ▸ present⟩
    · exact ⟨met, by simp [begun]⟩
  all_goals rcases undisturbed traversal with same | ⟨missing, source, begun⟩
  next => exact recorded.accounts traversal walk (same ▸ there)
  next =>
    obtain rfl : { source } = walk := Option.some.inj (begun.symm.trans there)
    exact unvisited traversal missing ▸ .start source
  next => exact recorded.follows traversal walk (same ▸ there)
  next => exact unvisited traversal missing ▸ .nil _

end Recorded

theorem walking_records {outside : Outside} (run : (walking Outside).Runs { outside } history state) :
    Recorded history state := by
  refine run.keeps Recorded (.start outside) ?_ ?_
  next => exact fun _ _ _ _ _ recorded done counts => recorded.visited done counts.1 counts.2
  next => exact fun _ _ _ recorded between => recorded.meanwhile between.1 between.2

section Growing

variable {outside : Outside} (run : (walking Outside).Runs { outside } history before)

include run

theorem runs_meanwhile (steady : after.containers.Steady)
    (same : after.containers.traversals = before.containers.traversals) :
    (walking Outside).Runs { outside } history after :=
  run.between ⟨steady, fun traversal => .inl (by rw [same])⟩

theorem runs_edit (list : Handle Sequence) (step : Sequence → Sequence)
    (edit : ∀ held, before.containers.lists.cell? list = some held → held.Edit (step held)) :
    (walking Outside).Runs { outside } history
      (before.withLists (before.containers.lists.modify list step)) :=
  runs_meanwhile run ((walking_records run).steady.modify edit) rfl

theorem runs_create {made : Sequence} (fresh : made.Fresh) :
    (walking Outside).Runs { outside } history
      (before.withLists (before.containers.lists.add made).1) :=
  runs_meanwhile run ((walking_records run).steady.add fresh) rfl

theorem runs_begin (source : TraversalSource) :
    (walking Outside).Runs { outside } history
      (before.withTraversals (before.containers.traversals.add { source }).1) := by
  refine run.between ⟨(walking_records run).steady, fun traversal => ?_⟩
  have cells := Table.cell?_add before.containers.traversals { source } traversal
  split at cells
  next same => exact .inr ⟨same ▸ Table.cell?_fresh _ _, source, cells⟩
  next => exact .inl cells

theorem runs_visit (traversal : Handle Traversal) (act : Act)
    (present : (before.containers.traversals.cell? traversal).isSome) :
    let visit : Visit := ⟨traversal, act, before.containers⟩
    (walking Outside).Runs { outside } (history ++ [⟨visit, (attempt visit.perform before).1⟩])
      (attempt visit.perform before).2 :=
  run.command rfl ⟨rfl, Option.isSome_iff_ne_none.1 present⟩

end Growing

/-- After the history, traversals were visited, and containers changed meanwhile. -/
def Interleaved (outside : Diary) (history : List Visited) (state : State Diary) : Prop :=
  ∃ visits, (walking Diary).Runs { outside } (history ++ visits) state

namespace Interleaved

variable {outside : Diary} {state after : State Diary}

theorem of_runs (run : (walking Diary).Runs { outside } history state) :
    Interleaved outside history state :=
  ⟨[], by rwa [List.append_nil]⟩

theorem becomes (interleaved : Interleaved outside history state)
    (steady : state.containers.Steady → after.containers.Steady)
    (same : after.containers.traversals = state.containers.traversals) :
    Interleaved outside history after := by
  obtain ⟨visits, run⟩ := interleaved
  exact ⟨visits, runs_meanwhile run (steady (walking_records run).steady) same⟩

theorem visited (interleaved : Interleaved outside history state) (traversal : Handle Traversal)
    (act : Act) :
    Interleaved outside history
      (attempt (Visit.perform ⟨traversal, act, state.containers⟩) state).2 := by
  obtain ⟨visits, run⟩ := interleaved
  cases there : state.containers.traversals.cell? traversal with
  | some walk =>
    have further := runs_visit run traversal act (by simp [there])
    dsimp only at further
    rw [List.append_assoc] at further
    exact ⟨_, further⟩
  | none =>
    have unmoved : (attempt (Visit.perform ⟨traversal, act, state.containers⟩) state).2 = state := by
      cases act with
      | finish => rw [attempt_finish, Table.modify_missing there]
      | advance => simp only [Visit.perform, attempt, next_missing there]
    rw [unmoved]
    exact ⟨visits, run⟩

theorem walks : Walks (Interleaved outside history) where
  starts source state interleaved := by
    obtain ⟨visits, run⟩ := interleaved
    exact ⟨visits, runs_begin run source⟩
  steps traversal state interleaved := .of_leaves (interleaved.visited traversal .advance)
  finishes traversal state interleaved := by
    have visited := interleaved.visited traversal .finish
    rw [attempt_finish] at visited
    exact visited

theorem notes : Keeps (Interleaved outside history) noteMoment :=
  fun _ interleaved => interleaved.becomes id rfl

end Interleaved

section Scripts

variable {host : Callbacks Diary} {conducts : Conducts} {outside : Diary}
  {run : List Operation → Action Diary Unit} {before : State Diary}

theorem perform_interleaves (ordinary : host.Ordinary)
    (runs : ∀ script, Keeps (Interleaved outside history) (run script)) (operation : Operation) :
    Keeps (Interleaved outside history) (perform (conducts.surroundings host run) operation) := by
  have upkeep : Upkeep (conducts.surroundings host run) (fun _ => True) (Interleaved outside history) :=
    conducts.unrestricted.upkeep ordinary (fun script _ => runs script)
      (fun step _ ⟨visits, run⟩ edit => ⟨visits, runs_edit run _ step edit⟩)
      (fun ⟨visits, run⟩ fresh => ⟨trivial, visits, runs_create run fresh⟩)
      (fun _ _ interleaved => interleaved.becomes id rfl)
      fun _ _ _ _ interleaved => interleaved.becomes id rfl
  have cursors : IgnoresCursors (Interleaved outside history) :=
    fun _ _ interleaved => interleaved.becomes id rfl
  refine upkeep.perform_keeps Interleaved.walks operation (fun _ _ => trivial)
    (fun _ _ _ interleaved => interleaved.becomes id rfl) (fun _ => ?_) fun moves => cursors.move_keeps _ moves
  exact destruct_keeps (fun _ interleaved => interleaved.becomes id rfl)
    (fun _ _ _ interleaved => interleaved.becomes id rfl) runs

theorem runWithin_interleaves (ordinary : host.Ordinary) (depth : Nat) (script : List Operation) :
    Keeps (Interleaved outside history) (conducts.runWithin host depth script) :=
  runWithin_keeps Interleaved.notes
    (fun _ runs operation (_ : True) => perform_interleaves ordinary
      (fun script => runs script fun _ _ => trivial) operation) depth fun _ _ => trivial

/--
The visits that a step of a script makes. To advance a traversal, or to give it up, is a single visit, which
meets the containers as they are at the step and has its answer.
-/
def Recounts (step : Step) (visits : List Visited) : Prop :=
  match step.operation with
  | .advance traversal =>
      step.before.containers.traversals.cell? traversal ≠ none →
        ∃ outcome, visits = [⟨⟨traversal, .advance, step.before.containers⟩, outcome⟩] ∧
          step.outcome = outcome.map .step
  | .finish traversal =>
      step.before.containers.traversals.cell? traversal ≠ none →
        visits = [⟨⟨traversal, .finish, step.before.containers⟩, .ok none⟩] ∧ step.outcome = .ok .done
  | _ => True

inductive Retraces : List Step → List Visited → Prop
  | nil : Retraces [] []
  | cons {step : Step} {steps : List Step} {visits later : List Visited} (now : Recounts step visits)
      (rest : Retraces steps later) : Retraces (step :: steps) (visits ++ later)

theorem perform_recounts (ordinary : host.Ordinary)
    (runs : ∀ outside history script, Keeps (Interleaved outside history) (run script))
    (ran : (walking Diary).Runs { outside } history before) (operation : Operation) :
    let ended := attempt (perform (conducts.surroundings host run) operation) before
    ∃ visits, (walking Diary).Runs { outside } (history ++ visits) ended.2 ∧
      Recounts ⟨operation, before, ended.1⟩ visits := by
  intro ended
  have elsewhere (recounts : ∀ visits, Recounts ⟨operation, before, ended.1⟩ visits) :
      ∃ visits, (walking Diary).Runs { outside } (history ++ visits) ended.2 ∧
        Recounts ⟨operation, before, ended.1⟩ visits := by
    obtain ⟨visits, run⟩ : Interleaved outside history ended.2 :=
      (perform_interleaves ordinary (runs outside history) operation before (.of_runs ran)).leaves
    exact ⟨visits, run, recounts visits⟩
  cases operation with
  | advance traversal =>
    have steps : ended = ((attempt (next traversal) before).1.map .step, (attempt (next traversal) before).2) :=
      attempt_map Operation.Answer.step
    by_cases there : before.containers.traversals.cell? traversal = none
    next => exact elsewhere fun _ present => (present there).elim
    next =>
      rw [steps]
      exact ⟨_, runs_visit ran traversal .advance (Option.isSome_iff_ne_none.2 there),
        fun _ => ⟨_, rfl, rfl⟩⟩
  | finish traversal =>
    by_cases there : before.containers.traversals.cell? traversal = none
    next => exact elsewhere fun _ present => (present there).elim
    next =>
      have visited := runs_visit ran traversal .finish (Option.isSome_iff_ne_none.2 there)
      dsimp only at visited
      rw [attempt_finish] at visited
      exact ⟨_, visited, fun _ => ⟨rfl, rfl⟩⟩
  | _ => exact elsewhere fun _ => trivial

theorem runScript_retraces (ordinary : host.Ordinary)
    (runs : ∀ outside history script, Keeps (Interleaved outside history) (run script))
    (ran : (walking Diary).Runs { outside } history before) (script : List Operation) :
    let surroundings := conducts.surroundings host run
    ∃ visits, (walking Diary).Runs { outside } (history ++ visits)
        (attempt (runScript surroundings script) before).2 ∧
      Retraces (stepsOf surroundings script before) visits := by
  intro surroundings
  induction script generalizing history before with
  | nil =>
    refine ⟨[], ?_, .nil⟩
    rw [List.append_nil]
    exact runs_meanwhile ran (walking_records ran).steady rfl
  | cons operation rest ih =>
    have noted : (walking Diary).Runs { outside } history before.noted :=
      runs_meanwhile ran (walking_records ran).steady rfl
    obtain ⟨visits, performed, now⟩ := perform_recounts ordinary runs noted operation
    obtain ⟨later, final, retraces⟩ := ih performed
    rw [List.append_assoc] at final
    exact ⟨visits ++ later, (attempt_runScript_cons surroundings operation rest before) ▸ final,
      .cons now retraces⟩

theorem runWithin_retraces (ordinary : host.Ordinary) (depth : Nat) (script : List Operation)
    (ran : (walking Diary).Runs { outside } history before) :
    ∃ visits, (walking Diary).Runs { outside } (history ++ visits)
        (attempt (conducts.runWithin host depth script) before).2 ∧
      Retraces (conducts.stepsWithin host depth script before) visits := by
  cases depth with
  | succ depth => exact runScript_retraces ordinary (fun _ _ => runWithin_interleaves ordinary depth) ran script
  | zero =>
    -- Nothing is performed at this depth, so that a moment is all that is noted.
    refine ⟨[], ?_, .nil⟩
    have noted : (attempt (conducts.runWithin host 0 script) before).2 = before.noted := by
      cases script <;> rfl
    rw [List.append_nil, noted]
    exact runs_meanwhile ran (walking_records ran).steady rfl

end Scripts

end Walking

section Tracking

structure Tracks (source : TraversalSource) (visits : List Visited) : Prop where
  follows : Follows source visits
  inside : ∀ earlier event later item, visits = earlier ++ event :: later →
    yielded? event = some item →
      ∃ inside : earlier.length < (event.command.met.itemsOf source).length,
        (event.command.met.itemsOf source)[earlier.length] = item
  ends : ∀ earlier event later, visits = earlier ++ event :: later → yielded? event = none →
    ∀ other ∈ later, other.outcome = .ok none
  collects : ∀ earlier last later, visits = earlier ++ last :: later →
    (∀ event ∈ earlier, (yielded? event).isSome) →
      (∀ event ∈ earlier,
        event.command.met.itemsOf source <+: last.command.met.itemsOf source) →
        last.command.act = .advance → last.outcome = .ok none →
          earlier.filterMap yielded? = last.command.met.itemsOf source ∧
            ∀ (Outside : Type) (surroundings : Surroundings Outside) (state : State Outside),
              surroundings.Ordinary → state.containers = last.command.met →
                perform surroundings source.snapshot state =
                  .ok (.items (earlier.filterMap yielded?)) state

variable {source : TraversalSource} {visits earlier later : List Visited} {event last : Visited}

namespace Follows

theorem of_append {front back : List Visited} (follows : Follows source (front ++ back)) :
    Follows source front := by
  intro earlier event later split
  exact follows earlier event (later ++ back) (by rw [split, List.append_assoc, List.cons_append])

theorem yields (follows : Follows source visits) (split : visits = earlier ++ event :: later)
    {item : Value} (yielding : yielded? event = some item) :
    (event.command.met.itemsOf source)[earlier.length]? = some item := by
  have outcome := follows earlier event later split
  unfold due at outcome
  unfold yielded? at yielding
  rw [outcome] at yielding
  split at yielding
  next =>
    cases found : (event.command.met.itemsOf source)[earlier.length]? with
    | some other =>
      rw [found] at yielding
      exact yielding
    | none =>
      rw [found] at yielding
      dsimp only at yielding
      split at yielding <;> cases yielding
  next => cases yielding

theorem silent (follows : Follows source visits) (split : visits = earlier ++ event :: later)
    (ended : yielded? event = none) : ∀ other ∈ later, other.outcome = .ok none := by
  intro other member
  obtain ⟨front, back, rfl⟩ := List.append_of_mem member
  have outcome := follows (earlier ++ event :: front) other back (by simp [split])
  rw [outcome, due, if_neg]
  rintro ⟨_, going⟩
  have yields := going event (by simp)
  simp [ended] at yields

theorem filterMap_eq_take (follows : Follows source earlier) {items : List Value}
    (going : ∀ event ∈ earlier, (yielded? event).isSome)
    (begins : ∀ event ∈ earlier, event.command.met.itemsOf source <+: items) :
    earlier.filterMap yielded? = items.take earlier.length := by
  -- From the end, since what is due depends on all visits before.
  induction earlier using List.reverseRecOn with
  | nil => simp
  | append_singleton front event ih =>
    rw [List.forall_mem_append, List.forall_mem_singleton] at going begins
    obtain ⟨item, yields⟩ := Option.isSome_iff_exists.1 going.2
    have found := follows.yields rfl yields
    obtain ⟨rest, rfl⟩ := begins.2
    rw [List.filterMap_append, ih follows.of_append going.1 begins.1, List.length_append,
      List.length_singleton, List.take_add_one,
      List.getElem?_append_left (List.getElem?_eq_some_iff.1 found).1, found]
    simp [yields]

theorem exhausted (follows : Follows source visits) (split : visits = earlier ++ last :: later)
    (going : ∀ event ∈ earlier, (yielded? event).isSome) (advances : last.command.act = .advance)
    (ended : last.outcome = .ok none) :
    (last.command.met.itemsOf source).length ≤ earlier.length ∧
      ¬(earlier = [] ∧ last.command.met.lacks source = true) := by
  have outcome := follows earlier last later split
  rw [ended, due, if_pos ⟨advances, going⟩] at outcome
  cases found : (last.command.met.itemsOf source)[earlier.length]? with
  | some item =>
    rw [found] at outcome
    cases outcome
  | none =>
    rw [found] at outcome
    refine ⟨List.getElem?_eq_none_iff.1 found, fun ⟨empty, lacking⟩ => ?_⟩
    simp [empty, lacking] at outcome

theorem tracks (follows : Follows source visits)
    (steady : ∀ event ∈ visits, event.command.met.Steady) : Tracks source visits where
  follows := follows
  inside earlier event later item split yielding :=
    List.getElem?_eq_some_iff.1 (follows.yields split yielding)
  ends earlier event later split ended := follows.silent split ended
  collects earlier last later split going begins advances ended := by
    obtain ⟨short, present⟩ := follows.exhausted split going advances ended
    subst split
    have whole := follows.of_append.filterMap_eq_take going begins
    rw [List.take_of_length_le short] at whole
    refine ⟨whole, fun Outside surroundings state ordinary same => ?_⟩
    have now := steady last (by simp)
    have lives : last.command.met.lacks source = false := by
      rw [← Bool.not_eq_true]
      intro lacking
      -- Nothing was left of a list that is destroyed, so that nothing had been yielded of it.
      rw [now.itemsOf_eq_nil lacking, List.filterMap_eq_nil_iff] at whole
      refine present ⟨List.eq_nil_iff_forall_not_mem.2 fun event member => ?_, lacking⟩
      simpa [whole event member] using going event member
    rw [whole, ← same]
    exact snapshot_eq ordinary (same ▸ now) (same ▸ lives)

end Follows

end Tracking

end Traversal

/--
Any number of traversals may be begun, advanced and given up, and anything may be done to containers
meanwhile: every visit of a traversal answers what is due after its earlier visits, in the containers
that it meets. If these only ever got elements appended, then what has been yielded in the end is all
that the source holds. Whatever scripts perform, also within callbacks, is such an interleaving, in which
their steps have the answers that they got.
-/
theorem traversals_track_their_sources :
    (∀ (Outside : Type) (outside : Outside) (history : List Traversal.Visited) (state : State Outside),
      (Traversal.walking Outside).Runs { outside } history state →
        ∀ traversal walk, state.containers.traversals.cell? traversal = some walk →
          Traversal.Tracks walk.source (Traversal.visitsOf traversal history)) ∧
    (∀ (Outside : Type) (surroundings : Surroundings Outside) (list : Handle Sequence)
      (moment : Containers) (source : TraversalSource),
        (∀ value, Keeps (fun state => moment.itemsOf source <+: state.containers.itemsOf source)
          (perform surroundings (.append list value))) ∧
        ∀ other, Keeps (fun state => moment.itemsOf source <+: state.containers.itemsOf source)
          (perform surroundings (.appendAll list other))) ∧
    ∀ (host : Callbacks Diary), host.Ordinary → ∀ (conducts : Conducts) depth script outside history before,
      (Traversal.walking Diary).Runs { outside } history before →
        ∃ visits, (Traversal.walking Diary).Runs { outside } (history ++ visits)
            (attempt (conducts.runWithin host depth script) before).2 ∧
          Traversal.Retraces (conducts.stepsWithin host depth script before) visits := by
  refine ⟨fun Outside outside history state run traversal walk there => ?_,
    fun Outside surroundings list moment source => ⟨fun value => ?_, fun other => ?_⟩,
    fun host ordinary conducts depth script outside history before ran =>
      Traversal.runWithin_retraces ordinary depth script ran⟩
  next =>
    have recorded := Traversal.walking_records run
    refine (recorded.follows traversal walk there).tracks fun event member => ?_
    exact (recorded.met event (List.mem_filter.1 member).1).1
  next =>
    exact (append_extends_items surroundings list value moment source).bind fun _ => .of_pure _
  next =>
    have appends (value : Value) := append_extends_items surroundings list value moment source
    exact (Keeps.appendAll appends other).bind fun _ => .of_pure _

theorem traversals_track_their_sources_that_grow :
    let surroundings : Surroundings Unit :=
      { Callbacks.plain Unit fun _ => compareOn Value.rank with test := fun _ _ => return true }
    ∃ history state, (Traversal.walking Unit).Runs { outside := () } history state ∧
      history.map (fun event => (event.command.traversal.index, event.outcome.toOption)) =
        [(0, some (some (.integer 1))), (1, some (some (.integer 1))), (0, some (some (.integer 2))),
          (0, some none), (1, some none), (0, some none)] ∧
      Traversal.Tracks (.list ⟨0⟩) (Traversal.visitsOf ⟨1⟩ history) ∧
      ∃ last, (Traversal.visitsOf ⟨0⟩ history)[2]? = some last ∧
        let late : State Unit := { containers := last.command.met, outside := () }
        perform surroundings (.toList ⟨0⟩) late = .ok (.items [.integer 1, .integer 2]) late ∧
          let host := Callbacks.plain Diary fun _ => compareOn Value.rank
          let walking : Conducts := { Conducts.still with
            compare := fun _ _ _ _ => { script := [.advance ⟨0⟩], outcome := .ok .gt } }
          let script : List Operation := [.listOf [.integer 1, .integer 2] {}, .traverse (.list ⟨0⟩),
            .sort ⟨0⟩ ⟨0⟩, .advance ⟨0⟩]
          let sorted := walking.final host 2 script
          sorted.containers.traversals.cell? ⟨0⟩ =
              some { source := .list ⟨0⟩, position := 2, phase := .running } ∧
            ∃ earlier met, let last : Traversal.Visited := ⟨⟨⟨0⟩, .advance, met⟩, .ok (some (.integer 2))⟩
              (Traversal.walking Diary).Runs { outside := {} } (earlier ++ [last]) sorted ∧
                Traversal.Tracks (.list ⟨0⟩) (Traversal.visitsOf ⟨0⟩ (earlier ++ [last])) := by
  intro surroundings
  have pushes {history : List Traversal.Visited} {state : State Unit}
      (run : (Traversal.walking Unit).Runs { outside := () } history state) (value : Value)
      (live : (state.containers.lists.cell? ⟨0⟩).map (·.destroyed) = some false) :=
    Traversal.runs_edit run ⟨0⟩ (·.push value) fun held there =>
      .pushed (by simpa [there] using live) value
  have none : (Traversal.walking Unit).Runs { outside := () } [] { outside := () } := .start
  have created := Traversal.runs_edit (Traversal.runs_create none (.empty {})) ⟨0⟩ _ fun _ _ => .grown
  have begun := Traversal.runs_begin (Traversal.runs_begin created (.list ⟨0⟩)) (.list ⟨0⟩)
  have both := Traversal.runs_visit (Traversal.runs_visit (pushes begun (.integer 1) rfl) ⟨0⟩ .advance rfl)
    ⟨1⟩ .advance rfl
  have second := Traversal.runs_visit (pushes both (.integer 2) rfl) ⟨0⟩ .advance rfl
  have ended := Traversal.runs_visit (Traversal.runs_visit second ⟨0⟩ .advance rfl) ⟨1⟩ .finish rfl
  have done := Traversal.runs_visit (pushes ended (.integer 3) rfl) ⟨0⟩ .advance rfl
  have tracks := traversals_track_their_sources.1 Unit () _ _ done
  have ordinary : surroundings.Ordinary := Callbacks.plain_ordinary Unit _
  have collected := (tracks ⟨0⟩ _ rfl).collects [_, _] _ [_] rfl (by decide) (by decide) rfl rfl
  refine ⟨_, _, done, by decide, tracks ⟨1⟩ _ rfl, _, rfl, collected.2 Unit surroundings _ ordinary rfl, ?_⟩
  intro host walking script sorted
  have there : sorted.containers.traversals.cell? ⟨0⟩ =
      some { source := .list ⟨0⟩, position := 2, phase := .running } := by
    decide +kernel
  obtain ⟨history, run, retraces⟩ := traversals_track_their_sources.2.2 host
    (Callbacks.plain_ordinary Diary _) walking 2 script {} [] { outside := {} } .start
  rcases retraces with _ | ⟨-, _ | ⟨-, _ | ⟨-, _ | ⟨now, ⟨⟩⟩⟩⟩⟩
  obtain ⟨outcome, rfl, told⟩ := now (by decide +kernel)
  have answered : outcome = .ok (some (.integer 2)) := by
    have second : (outcome.map Operation.Answer.step).toOption = some (.step (some (.integer 2))) :=
      told ▸ (by decide +kernel)
    cases outcome with
    | error failure => cases second
    | ok item =>
      cases second
      rfl
  simp only [List.nil_append, List.append_nil, ← List.append_assoc, answered] at run
  exact ⟨there, _, _, run, traversals_track_their_sources.1 Diary {} _ sorted run ⟨0⟩ _ there⟩

end Collections
