import Mathlib
import Collections.Proofs.Runs.Deriving

set_option autoImplicit false

namespace Collections

def Operation.options? : Operation → Option ListOptions
  | .emptyList options | .nullList _ options | .listOf _ options | .listOfTraversal _ options
  | .join _ options => some options
  | _ => none

/-- Through these derivations, one after the other, the list comes from one that was given the options. -/
inductive Lineage (steps : List Step) (given : ListOptions) : List Derivation → Handle Sequence → Prop
  | created {step : Step} {list : Handle Sequence} (member : step ∈ steps)
      (takes : step.operation.options? = some given) (made : step.made? = some list) :
      Lineage steps given [] list
  | derived {chain : List Derivation} {source made : Handle Sequence} {step : Step}
      (earlier : Lineage steps given chain source) (member : step ∈ steps) (link : Derivation)
      (derives : step.operation = link.operation source) (makes : step.made? = some made) :
      Lineage steps given (chain ++ [link]) made

section Runs

variable {host : Callbacks Diary} {conducts : Conducts} {list made : Handle Sequence}
  {options given : ListOptions} {before : State Diary}

theorem derivedOptions_lasts :
    Sequence.Lasts fun late early => late.derivedOptions = early.derivedOptions where
  refl _ := rfl
  trans late early := late.trans early
  edits edit := by cases edit <;> rfl

abbrev Containers.Equipped (late early : Containers) : Prop :=
  late.Became (fun late early => late.derivedOptions = early.derivedOptions) early

theorem Containers.Provides.equipped {late early : Containers} (provides : early.Provides list options)
    (equipped : late.Equipped early) : late.Provides list options := by
  obtain ⟨held, there, rfl⟩ := provides
  exact equipped list held there

theorem Containers.Provides.suited {late early : Containers} (provides : late.Provides list options)
    (equipped : late.Equipped early) : early.Suits list options := by
  intro held there
  obtain ⟨kept, thereToo, same⟩ := equipped list held there
  exact same.symm.trans (provides.suits kept thereToo)

section Providing

variable (ordinary : host.Ordinary) (conducts : Conducts) (list : Handle Sequence) (options : ListOptions)
  (depth : Nat)

include ordinary

theorem runWithin_provides (script : List Operation) :
    Keeps (fun state => state.containers.Provides list options) (conducts.runWithin host depth script) := by
  intro before provides
  have equips : Keeps (fun state => state.containers.Equipped before.containers)
      (conducts.runWithin host depth script) :=
    runWithin_becomes derivedOptions_lasts ordinary before.containers depth script
  exact (equips before (.refl derivedOptions_lasts _)).imp (fun _ _ equipped => provides.equipped equipped)
    fun _ _ equipped => provides.equipped equipped

theorem provides_invariant :
    Invariant (conducts.surroundings host (conducts.runWithin host depth)) (fun _ => True)
      fun state => state.containers.Provides list options :=
  becoming_invariant derivedOptions_lasts ordinary (fun provides equipped _ => provides.equipped equipped)
    (runWithin_provides ordinary conducts list options depth)

theorem destruct_provides (destructor : String) (value : Value) :
    Keeps (fun state => state.containers.Provides list options)
      ((conducts.surroundings host (conducts.runWithin host depth)).destruct destructor value) :=
  destruct_becomes derivedOptions_lasts (fun provides equipped _ => provides.equipped equipped)
    (runWithin_provides ordinary conducts list options depth) destructor value

end Providing

structure Conducts.LeavesAlone (conducts : Conducts) (list : Handle Sequence) : Prop extends
    conducts.Within fun operation => operation.edited? ≠ some list where
  destruct : ∀ call destructor value,
    ∀ operation ∈ (conducts.destruct call destructor value).script, operation.edited? ≠ some list

/--
Since before, the list has only been appended to, and of what has been told since then at least some is what
its growth calls for.
-/
def State.Fills (before : State Diary) (fresh : Sequence) (made : Handle Sequence) (state : State Diary) :
    Prop :=
  ∃ values told, state.containers.lists.cell? made = some (values.foldl Sequence.extend fresh) ∧
    state.outside.notices = before.outside.notices ++ told ∧ (fresh.growths values).Sublist told

variable {fresh : Sequence}

theorem fills_invariant (ordinary : host.Ordinary) (leaves : conducts.LeavesAlone made)
    {run : List Operation → Action Diary Unit}
    (runs : ∀ script : List Operation, (∀ operation ∈ script, operation.edited? ≠ some made) →
      Keeps (before.Fills fresh made) (run script)) :
    Invariant (conducts.surroundings host run) (· ≠ made) (before.Fills fresh made) := by
  refine leaves.toWithin.invariant ordinary runs ?_ ?_ (fun _ _ fills => fills) (fun _ _ fills => fills) ?_
  next =>
    rintro state edited step elsewhere ⟨values, told, there, since⟩ _
    -- The edit is one of another list.
    refine ⟨values, told, ?_, since⟩
    dsimp only
    rw [Table.cell?_modify, if_neg (Ne.symm elsewhere), there]
  next =>
    rintro state fresh ⟨values, told, there, since⟩ _
    exact ⟨Table.added_ne there fresh, values, told, Table.cell?_add_of_there there fresh, since⟩
  next =>
    rintro state calls notices _ ⟨more, rfl⟩ ⟨values, told, there, tells, grows⟩
    refine ⟨values, told ++ more, there, ?_, grows.trans (List.sublist_append_left told more)⟩
    rw [tells, List.append_assoc]

theorem runWithin_fills (ordinary : host.Ordinary) (leaves : conducts.LeavesAlone made) (depth : Nat)
    {script : List Operation} (elsewhere : ∀ operation ∈ script, operation.edited? ≠ some made) :
    Keeps (before.Fills fresh made) (conducts.runWithin host depth script) := by
  have notes : Keeps (before.Fills fresh made) noteMoment := fun _ fills => fills
  refine runWithin_keeps notes (fun run runs operation elsewhere => ?_) depth elsewhere
  refine (fills_invariant ordinary leaves runs).perform_keeps operation
    (fun _ edits same => elsewhere (same ▸ edits)) (fun _ _ _ fills => fills) fun _ destructor value => ?_
  have noted : Keeps (before.Fills fresh made) (noteDestructed destructor value) := fun _ fills => fills
  have counts : Keeps (before.Fills fresh made) countCall := fun _ fills => fills
  exact noted.bind fun _ => act_keeps counts fun call => runs _ (leaves.destruct call destructor value)

theorem append_fills (live : fresh.destroyed = false) (run : List Operation → Action Diary Unit)
    (value : Value) :
    Keeps (before.Fills fresh made)
      (Sequence.append (conducts.surroundings host run).toCallbacks made value) := by
  rintro state ⟨values, told, there, tells, grows⟩
  have lives := Sequence.extendEach_live live values
  refine ((Sequence.append_extends _ there lives value).imp ?_).ends
  rintro _ after ⟨⟨_, extended⟩, outside⟩
  rw [tellAll_surroundings] at outside
  refine ⟨values ++ [value], told ++ (values.foldl Sequence.extend fresh).growth, ?_, ?_, ?_⟩
  · rw [extended, List.foldl_append]
    rfl
  · rw [outside]
    exact (congrArg (· ++ _) tells).trans (List.append_assoc _ _ _)
  · rw [growths_append]
    exact grows.append (by simp [Sequence.growths])

theorem starts_providing (before : State Diary) {given : ListOptions} (bare : given.destructor = none)
    (destructor : Option String) :
    Starts before { given with destructor } fun made state => state.containers.Provides made given :=
  ⟨_, Table.cell?_added _ _, Sequence.derivedOptions_create bare destructor⟩

theorem creates_provides (ordinary : host.Ordinary) (depth : Nat) {operation : Operation}
    (takes : operation.options? = some given) :
    Ends (perform (conducts.surroundings host (conducts.runWithin host depth)) operation) before
      (fun answer after => ∀ made, answer = .list made →
        after.containers.Provides made { given with destructor := none }) fun _ _ => True := by
  have upkeep (made : Handle Sequence) :=
    (provides_invariant ordinary conducts made { given with destructor := none } depth).toUpkeep
  have added {fresh : Sequence} (same : fresh.derivedOptions = { given with destructor := none }) :
      Succeeds (Sequence.add fresh) before fun made after =>
        after.containers.Provides made { given with destructor := none } :=
    ⟨_, _, rfl, fresh, Table.cell?_added _ _, same⟩
  have provided {action : Action Diary (Handle Sequence)}
      (ends : Ends action before (fun made after => True → after.containers.Provides made
        { given with destructor := none }) fun _ _ => True) :=
    answers_list (ends.imp (fun _ _ provides => provides trivial) fun _ _ _ => trivial)
  have starts : Starts before given fun made state =>
      state.containers.Provides made { given with destructor := none } := by
    have bare : ({ given with destructor := none } : ListOptions).destructor = none := rfl
    exact starts_providing before bare given.destructor
  cases operation with
  | emptyList options =>
    cases takes
    exact provided (making_leaves starts fun _ _ => .of_pure ())
  | nullList length options =>
    cases takes
    refine provided ?_
    unfold Sequence.withLength Sequence.ofNulls
    split
    next =>
      split
      · trivial
      · trivial
      next =>
        split
        · exact ((added rfl).imp fun _ _ provides _ => provides).ends
        · trivial
    · trivial
  | listOf values options =>
    cases takes
    exact provided (making_leaves starts fun made _ => .forM ((upkeep made).append trivial) values)
  | listOfTraversal traversal options =>
    cases takes
    have walks (made : Handle Sequence) : Walks fun state : State Diary =>
        state.containers.Provides made { given with destructor := none } :=
      .of_any fun _ _ provides => provides
    exact provided (making_leaves starts fun made _ =>
      (walks made).visitAll ((upkeep made).append trivial) _ traversal)
  | join lists options =>
    cases takes
    exact provided (making_leaves starts fun made _ => .forM ((upkeep made).making.appendAll trivial) _)
  | _ => cases takes

section Teardown

def State.TellsEnd (options : ListOptions) (state : State Diary) : Prop :=
  ∃ earlier length destructed, state.outside.notices =
    earlier ++ options.logger.toList.map (·, .destroyed length destructed)

theorem release_tells (run : List Operation → Action Diary Unit)
    (provides : before.containers.Provides list options) (length : Number) (destructed : Bool) :
    Succeeds (do
      Sequence.change list Sequence.release
      Sequence.notify (conducts.surroundings host run).toCallbacks list (.destroyed length destructed))
      before fun _ after => after.TellsEnd options := by
  obtain ⟨held, there, rfl⟩ := provides
  let callbacks := (conducts.surroundings host run).toCallbacks
  refine (Sequence.change_silent there callbacks _).bind fun _ freed ⟨⟨_, released⟩, silent⟩ => ?_
  refine (Sequence.notify_tells callbacks released _).imp fun _ after ⟨_, told⟩ => ?_
  rw [tellAll_surroundings, silent] at told
  exact ⟨_, length, destructed, congrArg Diary.notices told⟩

variable (ordinary : host.Ordinary) (depth : Nat) (provides : before.containers.Provides list options)

include ordinary provides

theorem destroy_tells :
    Ends (Sequence.destroy (conducts.surroundings host (conducts.runWithin host depth)).toCallbacks list)
      before (fun _ after => after.TellsEnd options) fun _ _ => True := by
  refine Sequence.requireLive_bind trivial fun held _ _ => Ends.bind_eq rfl ?_
  split
  next destructor _ =>
    have destructs := destruct_provides ordinary conducts list options depth
    have walks := Contract.destructFrom destructs list destructor 0
    exact ((walks _ before provides).imp (fun _ _ kept => kept) fun _ _ _ => trivial).bind
      fun _ _ provides => (release_tells _ provides _ _).ends
  next => exact (release_tells _ provides _ _).ends

theorem convertToOrderedSet_tells :
    Ends (Sequence.convertToOrderedSet
        (conducts.surroundings host (conducts.runWithin host depth)).toCallbacks list)
      before (fun _ after => after.TellsEnd options) fun _ _ => True := by
  have upkeep := (provides_invariant ordinary conducts list options depth).toUpkeep
  have sets : IgnoresSets fun state : State Diary => state.containers.Provides list options :=
    fun _ _ provides => provides
  have kept {α : Type} {action : Action Diary α}
      (keeps : Keeps (fun state => state.containers.Provides list options) action) {state : State Diary}
      (provides : state.containers.Provides list options) :
      Ends action state (fun _ after => after.containers.Provides list options) fun _ _ => True :=
    (keeps state provides).imp (fun _ _ provides => provides) fun _ _ _ => trivial
  have makes := upkeep.toOrderedSet list fun values => upkeep.setOf sets values none none
  refine (kept makes provides).bind fun set made provides => Ends.bind_eq rfl ?_
  refine (kept (Invariant.changeSet sets set _) provides).bind fun _ given provides => ?_
  refine (kept (upkeep.change trivial fun _ => .abandoned) provides).bind
    fun _ bare provides => Ends.bind_eq rfl ?_
  refine (kept (upkeep.trimming.notify list _) provides).bind fun _ told provides => ?_
  exact (destroy_tells ordinary depth provides).bind fun _ _ tells => tells

theorem perform_tells {operation : Operation} (ends : operation.ended? = some list) :
    Ends (perform (conducts.surroundings host (conducts.runWithin host depth)) operation) before
      (fun _ after => after.TellsEnd options) fun _ _ => True := by
  unfold Operation.ended? at ends
  split at ends <;> cases ends
  next => exact (destroy_tells ordinary depth provides).bind fun _ _ tells => tells
  next => exact (destroy_tells ordinary depth provides).bind fun _ _ tells => tells
  next => exact (convertToOrderedSet_tells ordinary depth provides).bind fun _ _ tells => tells

end Teardown

section Growing

variable {held : Sequence} (there : before.containers.lists.cell? list = some held)
  (run : List Operation → Action Diary Unit)

include there

theorem perform_grows {operation : Operation} (extends_ : operation.extended? = some list) :
    Ends (perform (conducts.surroundings host run) operation) before
      (fun _ after => ∃ values,
        after.containers.lists.cell? list = some (values.foldl Sequence.extend held) ∧
          after.outside.notices = before.outside.notices ++ held.growths values)
      fun _ after => after = before := by
  have refused {guard : ListOperation} (dead : held.destroyed = true)
      (guards : operation.guarded? = some (list, guard)) :
      perform (conducts.surroundings host run) operation before = .error (.list (.destroyed guard)) before :=
    perform_refused (by rwa [Table.get_of_cell? there]) _ guards
  unfold Operation.extended? at extends_
  cases dead : held.destroyed with
  | true =>
    -- Both ways to append are refused, each under its own name.
    unfold Ends
    split at extends_ <;> cases extends_ <;> rw [refused dead rfl]
  | false =>
    split at extends_ <;> cases extends_
    next value =>
      refine Ends.bind ((Sequence.append_extends _ there dead value).imp ?_).ends fun _ _ told => told
      rintro _ after ⟨⟨_, extended⟩, outside⟩
      rw [tellAll_surroundings] at outside
      exact ⟨[value], extended, by simp [outside, Sequence.growths]⟩
    next source =>
      refine Ends.bind (Ends.bind_eq (Sequence.requireLive_eq there dead .appendAll) ?_) fun _ _ told => told
      split
      next => exact rfl
      next =>
        refine Ends.bind_eq rfl ((Sequence.appendEach_extends _ there dead _).imp ?_).ends
        rintro _ after ⟨⟨_, extended⟩, outside⟩
        rw [tellAll_surroundings] at outside
        exact ⟨_, extended, congrArg Diary.notices outside⟩

end Growing

section Steps

variable (ordinary : host.Ordinary) {depth : Nat} {script : List Operation} {start : State Diary}
  {step : Step}

theorem stepsOf_operations (surroundings : Surroundings Diary) (script : List Operation)
    (start : State Diary) : (stepsOf surroundings script start).map Step.operation = script := by
  induction script generalizing start with
  | nil => rfl
  | cons operation rest ih => rw [stepsOf, List.map_cons, ih]

theorem mem_stepsOf_of_made {surroundings : Surroundings Diary} (index : Nat)
    (made : ((stepsOf surroundings script start).map Step.made?)[index]? = some (some list)) :
    ∃ step ∈ stepsOf surroundings script start,
      script[index]? = some step.operation ∧ step.made? = some list := by
  rw [List.getElem?_map] at made
  obtain ⟨step, found, made⟩ := Option.map_eq_some_iff.1 made
  refine ⟨step, List.mem_of_getElem? found, ?_, made⟩
  conv_lhs => rw [← stepsOf_operations surroundings script start]
  rw [List.getElem?_map, found, Option.map_some]

include ordinary

theorem stepsOf_equipped
    (member : step ∈ stepsOf (conducts.surroundings host (conducts.runWithin host depth)) script start) :
    let surroundings := conducts.surroundings host (conducts.runWithin host depth)
    let final := (attempt (runScript surroundings script) start).2
    final.containers.Equipped step.before.containers ∧
      final.containers.Equipped (step.after surroundings).containers := by
  intro surroundings
  have performs (moment : Containers) (operation : Operation) :
      Keeps (fun state => state.containers.Equipped moment) (perform surroundings operation) :=
    perform_becomes derivedOptions_lasts ordinary
      (fun early late _ => late.trans derivedOptions_lasts early)
      (runWithin_becomes derivedOptions_lasts ordinary moment depth) operation
  have runs (moment : Containers) (script : List Operation) :
      Keeps (fun state => state.containers.Equipped moment) (runScript surroundings script) :=
    runScript_keeps (fun _ kept => kept) fun operation _ => performs moment operation
  induction script generalizing start with
  | nil => cases member
  | cons operation rest ih =>
    rw [attempt_runScript_cons]
    rcases List.mem_cons.1 member with rfl | later
    · let after := (attempt (perform surroundings operation) start.noted).2
      have stepped := (performs _ operation start.noted (.refl derivedOptions_lasts _)).leaves
      have rested := (runs after.containers rest after (.refl derivedOptions_lasts _)).leaves
      exact ⟨rested.trans derivedOptions_lasts stepped, rested⟩
    · exact ih later

theorem derives_provides {source : Handle Sequence} {link : Derivation} (bare : options.destructor = none)
    (suits : before.containers.Suits source options) :
    Ends (perform (conducts.surroundings host (conducts.runWithin host depth)) (link.operation source)) before
      (fun answer after => ∀ made, answer = .list made →
        after.containers.Provides made (link.passesOn options)) fun _ _ => True := by
  have upkeep (made : Handle Sequence) :=
    (provides_invariant ordinary conducts made (link.passesOn options) depth).toUpkeep
  have starts := starts_providing before (link.passesOn_bare bare) link.destructor
  have derives := link.leaves (fun made => (upkeep made).append trivial) suits starts
    fun _ made (_ : True) => (upkeep made).toContract
  exact derives.imp (fun _ _ provides made same => provides made same trivial) fun _ _ _ => trivial

omit ordinary in
theorem answered_of_mem {surroundings : Surroundings Diary}
    {wanted : Handle Sequence → State Diary → Prop} (member : step ∈ stepsOf surroundings script start)
    (makes : step.made? = some list)
    (ends : Ends (perform surroundings step.operation) step.before
      (fun answer after => ∀ made, answer = .list made → wanted made after) fun _ _ => True) :
    wanted list (step.after surroundings) :=
  ends.answered (outcome_of_mem member ▸ Step.answered_of_made makes) list rfl

theorem Lineage.provides {chain : List Derivation}
    (lineage : Lineage (stepsOf (conducts.surroundings host (conducts.runWithin host depth)) script
      { outside := {} }) given chain list) :
    (conducts.final host (depth + 1) script).containers.Provides list (inherited given chain) := by
  -- The induction is on what holds at the end of the run, and so held at every step where the list was there.
  induction lineage with
  | created member takes made =>
    have provides := answered_of_mem member made (creates_provides ordinary depth takes)
    exact provides.equipped (stepsOf_equipped ordinary member).2
  | derived earlier member link derives makes ih =>
    have suits := ih.suited (stepsOf_equipped ordinary member).1
    have provides := answered_of_mem member makes
      (derives ▸ derives_provides ordinary (inherited_bare _ _) suits)
    rw [inherited_concat]
    exact provides.equipped (stepsOf_equipped ordinary member).2

omit ordinary in
theorem derives_fills (ordinary : host.Ordinary) (conducts : Conducts) (depth : Nat)
    {source : Handle Sequence} {link : Derivation} (suits : before.containers.Suits source options) :
    Ends (perform (conducts.surroundings host (conducts.runWithin host depth)) (link.operation source)) before
      (fun answer after => ∀ made, answer = .list made →
        (link.filters = true → conducts.LeavesAlone made) →
          before.Fills (Sequence.create { link.passesOn options with destructor := link.destructor }) made
            after)
      fun _ _ => True := by
  refine link.leaves (fun made => append_fills rfl _) suits ?_ fun filters made leaves => ?_
  next => exact ⟨[], [], Table.cell?_added _ _, (List.append_nil _).symm, List.Sublist.refl _⟩
  next =>
    have leaves := leaves filters
    exact (fills_invariant ordinary leaves fun _ => runWithin_fills ordinary leaves depth).toContract

end Steps

/--
What is done with the list is told to the logger of the options, and to no other; every position that is drawn
for it comes from their random source.
-/
structure Surroundings.Heeds (surroundings : Surroundings Diary) (options : ListOptions)
    (list : Handle Sequence) (held : Sequence) (state : State Diary) : Prop where
  alone : ∀ operation, operation.edited? = some list → ∀ others, perform surroundings operation state =
    perform (surroundings.withOthers options others) operation state
  growth : ∀ operation, operation.extended? = some list → Ends (perform surroundings operation) state
    (fun _ after => ∃ values,
      after.containers.lists.cell? list = some (values.foldl Sequence.extend held) ∧
        after.outside.notices = state.outside.notices ++ held.growths values)
    fun _ after => after = state
  teardown : ∀ operation, operation.ended? = some list →
    Ends (perform surroundings operation) state (fun _ after => after.TellsEnd options) fun _ _ => True

theorem provides_heeds (ordinary : host.Ordinary) (conducts : Conducts) (depth : Nat) {held : Sequence}
    (there : before.containers.lists.cell? list = some held) (same : held.derivedOptions = options) :
    (conducts.surroundings host (conducts.runWithin host depth)).Heeds options list held before := by
  have provides : before.containers.Provides list options := ⟨held, there, same⟩
  have upkeep := (provides_invariant ordinary conducts list options depth).toUpkeep
  have destructs := destruct_provides ordinary conducts list options depth
  exact {
    alone := fun _ edits others => perform_withOthers others upkeep destructs edits before provides
    growth := fun _ extends_ => perform_grows there _ extends_
    teardown := fun _ ends => perform_tells ordinary depth provides ends }

/--
A list that is derived from another one has the logger and the random source that the first list of the chain
was given, unless it or one between them is a join without options: then it has none. It is derived by them
alone, filled with nothing but what it grows by told to the logger, and has no destructor but the one that a
copy is given. Whatever callbacks do, at every later moment it is grown, shuffled and ended by them alone.
-/
theorem derived_lists_inherit (ordinary : host.Ordinary) (depth : Nat) (script : List Operation) :
    let surroundings := conducts.surroundings host (conducts.runWithin host depth)
    let steps := stepsOf surroundings script { outside := {} }
    ∀ given chain source, Lineage steps given chain source →
      ∀ step ∈ steps, ∀ link made, step.operation = link.operation source → step.made? = some made →
        let options := inherited given (chain ++ [link])
        ((link.filters = true → conducts.LeavesAlone made) → ∃ held told,
          (step.after surroundings).containers.lists.cell? made = some held ∧
            held.destructor = link.destructor ∧
            (step.after surroundings).outside.notices = step.before.outside.notices ++ told ∧
            ((Sequence.create { options with destructor := link.destructor }).growths held.elements).Sublist
              told) ∧
        (∀ others, perform surroundings step.operation step.before =
          perform (surroundings.withOthers options others) step.operation step.before) ∧
        ∀ moment ∈ (conducts.final host (depth + 1) script).outside.moments, ∀ held,
          moment.lists.cell? made = some held → held.derivedOptions = options ∧
            ∀ inner state, state.containers = moment →
              (conducts.surroundings host (conducts.runWithin host inner)).Heeds options made held state := by
  intro surroundings steps given chain source lineage step member link made derives makes options
  have suits := lineage.provides ordinary |>.suited (stepsOf_equipped ordinary member).1
  have same : options = link.passesOn (inherited given chain) := inherited_concat given chain link
  refine ⟨fun leaves => ?_, fun others => ?_, fun moment noted held there => ?_⟩
  next =>
    have ends := derives ▸ derives_fills ordinary conducts depth suits
    obtain ⟨values, told, there, tells, grows⟩ := answered_of_mem member makes ends leaves
    refine ⟨_, told, there, Sequence.extendEach_destructor _ values, tells, ?_⟩
    rw [Sequence.extendEach_elements, same]
    exact grows
  next =>
    have upkeep (made : Handle Sequence) (given : ListOptions) :=
      (provides_invariant ordinary conducts made given depth).toUpkeep
    rw [derives, same]
    exact link.agrees upkeep others source step.before suits
  next =>
    have provides := (lineage.derived member link derives makes).provides ordinary
    have chained := final_becomes derivedOptions_lasts ordinary conducts (depth + 1) script
    have equipped := (List.pairwise_append.1 chained).2.2 moment noted _ (List.mem_singleton_self _)
    have same := provides.suited equipped held there
    refine ⟨same, ?_⟩
    rintro inner state rfl
    exact provides_heeds ordinary conducts inner there same

theorem derived_lists_inherit_from_growing_list :
    let host := Callbacks.plain Diary fun _ => compareOn Value.rank
    let conducts := { Conducts.still with
      test := fun _ _ value => { script := [.append ⟨0⟩ value], outcome := .ok true } }
    let given : ListOptions := { logger := some "log", random := some ⟨0⟩ }
    let script : List Operation := [.listOf [.integer 1] given, .copy ⟨0⟩ (some "drop"), .filter ⟨1⟩ ⟨0⟩,
      .shuffle ⟨2⟩, .destroy ⟨2⟩]
    let surroundings := conducts.surroundings host (conducts.runWithin host 1)
    let final := conducts.final host 2 script
    inherited given [.copy (some "drop"), .filter ⟨0⟩] = given ∧
      (∃ step ∈ stepsOf surroundings script { outside := {} }, step.operation = .filter ⟨1⟩ ⟨0⟩ ∧
        (∃ held, (step.after surroundings).containers.lists.cell? ⟨2⟩ = some held ∧ held.destructor = none) ∧
        ∀ others, perform surroundings step.operation step.before =
          perform (surroundings.withOthers given others) step.operation step.before) ∧
      (∀ moment ∈ final.outside.moments, ∀ held, moment.lists.cell? ⟨2⟩ = some held →
        held.derivedOptions = given) ∧
      final.outside.notices = [("log", .storageGrown 0 5), ("log", .storageGrown 0 5),
        ("log", .storageGrown 0 5), ("log", .destroyed (.ofNat 1) false)] := by
  intro host conducts given script surroundings final
  have made : (stepsOf surroundings script { outside := {} }).map Step.made? =
      [some ⟨0⟩, some ⟨1⟩, some ⟨2⟩, none, none] := by
    dsimp only [surroundings, script, given, conducts, host]
    cbv
  have tells : final.outside.notices = [("log", .storageGrown 0 5), ("log", .storageGrown 0 5),
      ("log", .storageGrown 0 5), ("log", .destroyed (.ofNat 1) false)] := by
    dsimp only [final, script, given, conducts, host]
    cbv
  have same : inherited given ([.copy (some "drop")] ++ [.filter ⟨0⟩]) = given := rfl
  have leaves : conducts.LeavesAlone ⟨2⟩ := by
    have none {operation : Operation} (member : operation ∈ []) : operation.edited? ≠ some ⟨2⟩ :=
      (List.not_mem_nil member).elim
    refine ⟨⟨fun _ _ _ _ _ => none, fun _ _ value operation member => ?_, fun _ _ _ _ _ => none⟩,
      fun _ _ _ _ => none⟩
    rw [List.mem_singleton.1 member]
    show some (⟨0⟩ : Handle Sequence) ≠ some ⟨2⟩
    decide
  obtain ⟨first, firstIn, creates, makesFirst⟩ := mem_stepsOf_of_made 0 (congrArg (·[0]?) made)
  obtain ⟨second, secondIn, copies, makesSecond⟩ := mem_stepsOf_of_made 1 (congrArg (·[1]?) made)
  obtain ⟨third, thirdIn, filters, makesThird⟩ := mem_stepsOf_of_made 2 (congrArg (·[2]?) made)
  have creates : first.operation = .listOf [.integer 1] given := (Option.some.inj creates).symm
  have copies : second.operation = .copy ⟨0⟩ (some "drop") := (Option.some.inj copies).symm
  have filters : third.operation = .filter ⟨1⟩ ⟨0⟩ := (Option.some.inj filters).symm
  have takes : first.operation.options? = some given := by rw [creates]; rfl
  have lineage := (Lineage.created firstIn takes makesFirst).derived secondIn (.copy (some "drop")) copies
    makesSecond
  have ordinary : host.Ordinary := Callbacks.plain_ordinary Diary _
  obtain ⟨fills, alone, keeps⟩ := derived_lists_inherit ordinary 1 script given _ _ lineage third thirdIn
    (.filter ⟨0⟩) ⟨2⟩ filters makesThird
  rw [List.nil_append, same] at alone keeps
  -- Runs that are not written alike would be compared by performing them.
  simp only [Nat.reduceAdd] at keeps
  obtain ⟨held, _, there, bare, _⟩ := fills fun _ => leaves
  refine ⟨same, ⟨third, thirdIn, filters, ⟨held, there, bare⟩, alone⟩, ?_, tells⟩
  dsimp only [final]
  intro moment noted held there
  exact (keeps moment noted held there).1

theorem joined_list_tells_nobody :
    let host := Callbacks.plain Diary fun _ => compareOn Value.rank
    let given : ListOptions := { logger := some "log", random := some ⟨0⟩ }
    let script : List Operation := [.listOf [.integer 1, .integer 2] given, .join [some ⟨0⟩] {},
      .shuffle ⟨1⟩, .destroy ⟨1⟩]
    let surroundings := Conducts.still.surroundings host (Conducts.still.runWithin host 0)
    let final := Conducts.still.final host 1 script
    Lineage (stepsOf surroundings script { outside := {} }) given [.join [] []] ⟨1⟩ ∧
      (final.containers.lists.cell? ⟨1⟩).map (fun held => (held.destroyed, held.logger, held.random)) =
        some (true, none, none) ∧
      final.outside.notices = [("log", .storageGrown 0 5)] := by
  intro host given script surroundings final
  have made : (stepsOf surroundings script { outside := {} }).map Step.made? =
      [some ⟨0⟩, some ⟨1⟩, none, none] := by
    dsimp only [surroundings, script, given, host]
    cbv
  have state : (final.containers.lists.cell? ⟨1⟩).map
      (fun held => (held.destroyed, held.logger, held.random)) = some (true, none, none) := by
    dsimp only [final, script, given, host]
    cbv
  have tells : final.outside.notices = [("log", .storageGrown 0 5)] := by
    dsimp only [final, script, given, host]
    cbv
  obtain ⟨first, firstIn, creates, makesFirst⟩ := mem_stepsOf_of_made 0 (congrArg (·[0]?) made)
  obtain ⟨second, secondIn, joins, makesSecond⟩ := mem_stepsOf_of_made 1 (congrArg (·[1]?) made)
  have creates : first.operation = .listOf [.integer 1, .integer 2] given := (Option.some.inj creates).symm
  have joins : second.operation = .join [some ⟨0⟩] {} := (Option.some.inj joins).symm
  have takes : first.operation.options? = some given := by rw [creates]; rfl
  have lineage := Lineage.created firstIn takes makesFirst
  exact ⟨lineage.derived secondIn (.join [] []) joins makesSecond, state, tells⟩

end Runs

end Collections
