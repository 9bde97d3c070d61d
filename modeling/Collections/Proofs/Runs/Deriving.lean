import Collections.Proofs.Runs.Dependence
import Collections.Proofs.Runs.Growth

set_option autoImplicit false

namespace Collections

variable {Outside : Type}

inductive Derivation where
  | copy (destructor : Option String)
  | filter (predicate : PredicateId)
  | filterMembers (members : Members)
  | filterOthers (members : Members)
  | join (earlier later : List (Option (Handle Sequence)))

namespace Derivation

def operation (source : Handle Sequence) : Derivation → Operation
  | .copy destructor => .copy source destructor
  | .filter predicate => .filter source predicate
  | .filterMembers members => .filterMembers source members
  | .filterOthers members => .filterOthers source members
  | .join earlier later => .join (earlier ++ some source :: later) {}

def joins : Derivation → Bool
  | .join .. => true
  | _ => false

def filters : Derivation → Bool
  | .copy .. | .join .. => false
  | _ => true

def destructor : Derivation → Option String
  | .copy destructor => destructor
  | _ => none

def passesOn (link : Derivation) (options : ListOptions) : ListOptions :=
  if link.joins then {} else options

end Derivation

/-- Created with the options, and derived from one another since then, lists have these. -/
def inherited (given : ListOptions) (chain : List Derivation) : ListOptions :=
  if chain.any Derivation.joins then {} else { given with destructor := none }

theorem inherited_concat (given : ListOptions) (chain : List Derivation) (link : Derivation) :
    inherited given (chain ++ [link]) = link.passesOn (inherited given chain) := by
  simp only [inherited, Derivation.passesOn, List.any_append, List.any_cons, List.any_nil, Bool.or_false]
  cases chain.any Derivation.joins <;> cases link.joins <;> rfl

theorem inherited_bare (given : ListOptions) (chain : List Derivation) :
    (inherited given chain).destructor = none := by
  unfold inherited
  split <;> rfl

theorem Derivation.passesOn_bare (link : Derivation) {options : ListOptions}
    (bare : options.destructor = none) :
    (link.passesOn options).destructor = none := by
  unfold Derivation.passesOn
  split
  · rfl
  · exact bare

theorem Sequence.derivedOptions_create {options : ListOptions} (bare : options.destructor = none)
    (destructor : Option String) : (create { options with destructor }).derivedOptions = options := by
  cases options
  cases bare
  rfl

section Making

variable {α : Type} {surroundings : Surroundings Outside} {before : State Outside}
  {spares : Handle Sequence → Prop} {keeps : Handle Sequence → State Outside → Prop}

def Starts (before : State Outside) (given : ListOptions)
    (keeps : Handle Sequence → State Outside → Prop) : Prop :=
  let added := before.containers.lists.add (Sequence.create given)
  keeps added.2 (before.withLists added.1)

theorem making_leaves {given : ListOptions} {use : Handle Sequence → Action Outside α}
    (starts : Starts before given keeps) (uses : ∀ made, spares made → Keeps (keeps made) (use made)) :
    Ends (do
      let made ← Sequence.empty given
      let _ ← use made
      return made) before (fun made after => spares made → keeps made after) fun _ _ => True := by
  apply Ends.bind_eq rfl
  -- What is asked of the list can only be asked once it has its handle.
  by_cases spare : spares (before.containers.lists.add (Sequence.create given)).2
  next =>
    have kept := (uses _ spare _ starts).imp (fun _ _ kept => kept) fun _ _ _ => trivial
    exact kept.bind fun _ _ kept _ => kept
  next => exact (Yields.of_any (use _) _).bind fun _ _ _ spared => absurd spared spare

variable (appends : ∀ made value, Keeps (keeps made) (Sequence.append surroundings.toCallbacks made value))

include appends

theorem filter_leaves {list : Handle Sequence} {options : ListOptions}
    {test : Value → Action Outside Bool}
    (suits : before.containers.Suits list options)
    (starts : Starts before { options with destructor := none } keeps)
    (tests : ∀ made, spares made → ∀ value, Keeps (keeps made) (test value)) :
    Ends (Sequence.filter surroundings.toCallbacks list test) before
      (fun made after => spares made → keeps made after) fun _ _ => True := by
  refine Sequence.requireLive_bind trivial fun held there _ => Ends.bind_eq (Sequence.state_eq there) ?_
  obtain rfl := suits held there
  refine making_leaves starts fun made spare =>
    .visitAll ((Keeps.list_state list).bind fun _ => .of_pure _) fun slot => ?_
  exact (Keeps.readSlot list slot).bind fun value => (tests made spare value).bind fun _ =>
    .ite (appends made value) (.of_pure _)

theorem Derivation.leaves {source : Handle Sequence} {options : ListOptions} (link : Derivation)
    (suits : before.containers.Suits source options)
    (starts : Starts before { link.passesOn options with destructor := link.destructor } keeps)
    (contract : link.filters = true → ∀ made, spares made → Contract surroundings (keeps made)) :
    Ends (perform surroundings (link.operation source)) before
      (fun answer after => ∀ made, answer = .list made → spares made → keeps made after)
      fun _ _ => True := by
  cases link with
  | copy destructor =>
    refine answers_list <| Sequence.requireLive_bind trivial fun held there _ =>
      Ends.bind_eq (Sequence.state_eq there) ?_
    obtain rfl := suits held there
    exact making_leaves starts fun made _ => .appendAll (appends made) source
  | join earlier later =>
    exact answers_list <| making_leaves starts fun made _ =>
      .forM (fun list => .appendAll (appends made) list) _
  | filter predicate =>
    exact answers_list (filter_leaves appends suits starts fun made spare =>
      (contract rfl made spare).tests predicate)
  | filterMembers members =>
    exact answers_list (filter_leaves appends suits starts fun made spare value =>
      .isMember ((contract rfl made spare).isAmong members) value)
  | filterOthers members =>
    exact answers_list (filter_leaves appends suits starts fun made spare value =>
      (Keeps.isMember ((contract rfl made spare).isAmong members) value).bind fun _ => .of_pure _)

omit appends

variable {options : ListOptions} (upkeep : ∀ made given,
    Upkeep surroundings (fun _ => True) fun state => state.containers.Provides made given)
  (others : Callbacks Outside)

include upkeep

theorem filter_withOthers (list : Handle Sequence) {test testToo : Value → Action Outside Bool}
    (tests : ∀ made given value, Keeps (fun state => state.containers.Provides made given) (test value))
    (same : testToo = test) :
    Agrees (fun state => state.containers.Suits list options)
      (Sequence.filter surroundings.toCallbacks list test)
      (Sequence.filter (surroundings.withOthers options others).toCallbacks list testToo) := by
  subst same
  refine fun state suits => requireLive_agrees fun held there => ?_
  obtain rfl := suits held there
  refine state_agrees there <| making_agrees fun made => .followed (.visitAll (fun slot => ?_) ?_ (fun slot => ?_) rfl) _
  · refine .bind (.refl _) (Keeps.readSlot list slot) fun value => ?_
    exact .bind (.refl _) (tests made _ value) fun _ =>
      .ite (append_withOthers others (upkeep made _) value) (.refl _)
  · exact (Keeps.list_state list).bind fun _ => .of_pure _
  · exact (Keeps.readSlot list slot).bind fun value => (tests made _ value).bind fun _ =>
      .ite ((upkeep made _).append trivial value) (.of_pure _)

theorem Derivation.agrees (link : Derivation) (source : Handle Sequence) :
    Agrees (fun state => state.containers.Suits source options) (perform surroundings (link.operation source))
      (perform (surroundings.withOthers (link.passesOn options) others) (link.operation source)) := by
  have members (chosen : Members) (made : Handle Sequence) (given : ListOptions) (value : Value) :
      Keeps (fun state => state.containers.Provides made given)
        (Sequence.isMember (isAmong surroundings chosen) value) :=
    .isMember ((upkeep made given).isAmong chosen) value
  have among (chosen : Members) : isAmong (surroundings.withOthers options others) chosen =
      isAmong surroundings chosen :=
    funext (isAmong_withOthers surroundings options others chosen)
  cases link with
  | copy destructor =>
    refine .followed (fun state suits => requireLive_agrees fun held there => ?_) _
    obtain rfl := suits held there
    exact state_agrees there <| making_agrees fun made => (appendAll_withOthers others (upkeep made _) source).followed _
  | join earlier later =>
    refine .followed (fun state _ => making_agrees fun made => .followed ?_ _) _
    exact .forM (appendAll_withOthers others (upkeep made _)) ((upkeep made _).making.appendAll trivial) _
  | filter predicate =>
    exact (filter_withOthers upkeep others source (fun made given => (upkeep made given).tests predicate)
      rfl).followed _
  -- The tests of these two ask the same of members, but are not written alike.
  | filterMembers chosen =>
    have agree : Agrees (fun state => state.containers.Suits source options) _ _ :=
      filter_withOthers upkeep others source (members chosen) (congrArg Sequence.isMember (among chosen))
    exact agree.followed _
  | filterOthers chosen =>
    have agree : Agrees (fun state => state.containers.Suits source options) _ _ :=
      filter_withOthers upkeep others source
        (fun made given value => (members chosen made given value).bind fun _ => .of_pure _)
        (congrArg (fun member value => do return !(← Sequence.isMember member value)) (among chosen))
    exact agree.followed _

end Making

end Collections
