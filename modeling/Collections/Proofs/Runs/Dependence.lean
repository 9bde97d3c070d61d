import Collections.Proofs.Runs.Finality

set_option autoImplicit false

namespace Collections

variable {Outside : Type}

def Agrees {α : Type} (keeps : State Outside → Prop) (action other : Action Outside α) : Prop :=
  ∀ state, keeps state → action state = other state

namespace Agrees

variable {α β : Type} {keeps : State Outside → Prop} {action other : Action Outside α}
  {next later : α → Action Outside β}

theorem refl (action : Action Outside α) : Agrees keeps action action := fun _ _ => rfl

theorem bind (first : Agrees keeps action other) (kept : Keeps keeps action)
    (second : ∀ result, Agrees keeps (next result) (later result)) :
    Agrees keeps (action >>= next) (other >>= later) := by
  intro state start
  have same := first state start
  have kept := kept state start
  unfold Ends at kept
  cases ended : action state with
  | ok result middle =>
    rw [ended] at same kept
    rw [bind_ok ended, bind_ok same.symm]
    exact second result middle kept
  | error failure middle =>
    rw [ended] at same
    rw [bind_error ended, bind_error same.symm]

theorem followed (first : Agrees keeps action other) (next : α → Action Outside β) :
    Agrees keeps (action >>= next) (other >>= next) := by
  intro state start
  change EStateM.bind action next state = EStateM.bind other next state
  simp only [EStateM.bind, first state start]

theorem ite {holds : Prop} [Decidable holds] {first second third fourth : Action Outside α}
    (yes : Agrees keeps first second) (no : Agrees keeps third fourth) :
    Agrees keeps (if holds then first else third) (if holds then second else fourth) := by
  split
  · exact yes
  · exact no

theorem forM {act actToo : α → Action Outside Unit} (agree : ∀ item, Agrees keeps (act item) (actToo item))
    (each : ∀ item, Keeps keeps (act item)) (items : List α) :
    Agrees keeps (items.forM act) (items.forM actToo) := by
  induction items with
  | nil => exact .refl _
  | cons item rest ih => exact bind (agree item) (each item) fun _ => ih

variable {length : Action Outside Nat} {visit visitToo : Nat → Action Outside Unit}
  (agree : ∀ position, Agrees keeps (visit position) (visitToo position))
  (measures : Keeps keeps length) (visits : ∀ position, Keeps keeps (visit position))

include agree measures visits

theorem visitFrom (growths remaining position : Nat) :
    Agrees keeps (visitFrom length visit growths remaining position)
      (visitFrom length visitToo growths remaining position) := by
  induction growths, remaining, position using visitFrom.induct with
  | case1 position growths remaining ih =>
    -- The length is measured before each visit, and both measure the same since the state is the same.
    rw [Collections.visitFrom, Collections.visitFrom]
    refine bind (.refl length) measures fun current => .ite ?_ (.refl _)
    exact bind (agree position) (visits position) fun _ => ih current
  | case2 position growths ih =>
    rw [Collections.visitFrom, Collections.visitFrom]
    exact bind (.refl length) measures fun current => .ite (ih current) (.refl _)
  | case3 position =>
    rw [Collections.visitFrom, Collections.visitFrom]
    exact .refl _

theorem visitAll {callbacks others : Callbacks Outside} (same : others.growths = callbacks.growths) :
    Agrees keeps (callbacks.visitAll length visit) (others.visitAll length visitToo) := by
  unfold Callbacks.visitAll
  rw [same]
  exact bind (.refl length) measures fun current => visitFrom agree measures visits _ current 0

end Agrees

/-- Others take the place of all loggers and random sources but those of the options. -/
def Surroundings.withOthers (surroundings : Surroundings Outside) (options : ListOptions)
    (others : Callbacks Outside) : Surroundings Outside :=
  { surroundings with
    notify := fun logger =>
      if options.logger = some logger then surroundings.notify logger else others.notify logger
    draw := fun source =>
      if source = options.random then surroundings.draw source else others.draw source }

section Indifferent

variable (surroundings : Surroundings Outside) (options : ListOptions) (others : Callbacks Outside)

theorem search_withOthers (set : Handle OrderedSet) (value : Value) (window : Window) :
    OrderedSet.search (surroundings.withOthers options others).toCallbacks set value window =
      OrderedSet.search surroundings.toCallbacks set value window := by
  induction width : window.width using Nat.strongRecOn generalizing window with
  | ind width ih =>
    rw [OrderedSet.search.eq_def]
    conv_rhs => rw [OrderedSet.search.eq_def]
    split
    next =>
      split
      next narrows =>
        refine bind_congr (x := OrderedSet.compareItem surroundings.toCallbacks set window.middle value)
          fun reply => ?_
        rw [ih _ (width ▸ window.width_above_lt narrows) window.above rfl,
          ih _ (width ▸ window.width_below_lt narrows) window.below rfl]
      next => rfl
    next => rfl

theorem isAmong_withOthers (members : Members) (value : Value) :
    isAmong (surroundings.withOthers options others) members value =
      isAmong surroundings members value := by
  cases members with
  | among values => rfl
  | set set =>
    unfold isAmong OrderedSet.contains OrderedSet.locate
    simp only [search_withOthers]
    rfl

theorem keepDistinct_withOthers (comparator : Option ComparatorId) (kept : Array Value)
    (values : List Value) :
    OrderedSet.keepDistinct (surroundings.withOthers options others).toCallbacks comparator kept values =
      OrderedSet.keepDistinct surroundings.toCallbacks comparator kept values := by
  induction values generalizing kept with
  | nil => rfl
  | cons value rest ih =>
    rw [OrderedSet.keepDistinct.eq_def, OrderedSet.keepDistinct.eq_def]
    dsimp only
    split
    · exact ih _
    · simp only [ih]
      rfl

theorem toOrderedSet_withOthers (list : Handle Sequence) (comparator : Option ComparatorId) :
    Sequence.toOrderedSet (surroundings.withOthers options others).toCallbacks list comparator =
      Sequence.toOrderedSet surroundings.toCallbacks list comparator := by
  unfold Sequence.toOrderedSet OrderedSet.ofValues
  simp only [keepDistinct_withOthers]
  rfl

theorem destructFrom_withOthers (list : Handle Sequence) (destructor : String) (slot remaining : Nat) :
    Sequence.destructFrom (surroundings.withOthers options others).toCallbacks list destructor slot
        remaining =
      Sequence.destructFrom surroundings.toCallbacks list destructor slot remaining := by
  induction remaining generalizing slot with
  | zero => rfl
  | succ remaining ih =>
    rw [Sequence.destructFrom, Sequence.destructFrom, ih]
    rfl

end Indifferent

def Containers.Provides (moment : Containers) (list : Handle Sequence) (options : ListOptions) : Prop :=
  ∃ held, moment.lists.cell? list = some held ∧ held.derivedOptions = options

def Containers.Suits (moment : Containers) (list : Handle Sequence) (options : ListOptions) : Prop :=
  ∀ held, moment.lists.cell? list = some held → held.derivedOptions = options

theorem Containers.Provides.suits {moment : Containers} {list : Handle Sequence} {options : ListOptions}
    (provides : moment.Provides list options) : moment.Suits list options := by
  obtain ⟨held, there, rfl⟩ := provides
  intro found thereToo
  rw [Option.some.inj (there.symm.trans thereToo)]

theorem state_agrees {α : Type} {before : State Outside} {list : Handle Sequence} {held : Sequence}
    {next later : Sequence → Action Outside α} (there : before.containers.lists.cell? list = some held)
    (same : next held before = later held before) :
    (Sequence.state list >>= next) before = (Sequence.state list >>= later) before :=
  (bind_ok (Sequence.state_eq there)).trans (same.trans (bind_ok (Sequence.state_eq there)).symm)

section Depending

variable {surroundings : Surroundings Outside} {list : Handle Sequence} {options : ListOptions}
  (others : Callbacks Outside)

theorem notify_withOthers (notice : Notice) :
    Agrees (fun state => state.containers.Provides list options)
      (Sequence.notify surroundings.toCallbacks list notice)
      (Sequence.notify (surroundings.withOthers options others).toCallbacks list notice) := by
  rintro state ⟨held, there, rfl⟩
  refine state_agrees there ?_
  cases logger : held.logger with
  | none => rfl
  | some name =>
    have same : held.derivedOptions.logger = some name := logger
    simp only [Surroundings.withOthers, if_pos same]

variable (upkeep : Upkeep surroundings (fun _ => True) fun state => state.containers.Provides list options)

include upkeep

theorem append_withOthers (value : Value) :
    Agrees (fun state => state.containers.Provides list options)
      (Sequence.append surroundings.toCallbacks list value)
      (Sequence.append (surroundings.withOthers options others).toCallbacks list value) := by
  refine .bind (.refl _) (Keeps.requireLive list .append) fun _ => ?_
  refine .bind (.refl _) (Keeps.list_state list) fun held => ?_
  split
  next =>
    refine .bind (.refl _) (upkeep.change trivial fun _ => .grown) fun _ => ?_
    exact (notify_withOthers others _).followed _
  next => exact .refl _

theorem appendAll_withOthers (source : Handle Sequence) :
    Agrees (fun state => state.containers.Provides list options)
      (Sequence.appendAll surroundings.toCallbacks list source)
      (Sequence.appendAll (surroundings.withOthers options others).toCallbacks list source) := by
  refine .bind (.refl _) (Keeps.requireLive list .appendAll) fun _ => .ite (.refl _) ?_
  exact .bind (.refl _) (Keeps.list_state source) fun held =>
    .forM (append_withOthers others upkeep) (upkeep.append trivial) held.elements

theorem exchange_withOthers (slot : Nat) :
    let visit (callbacks : Callbacks Outside) : Action Outside Unit := do
      let held ← Sequence.state list
      match ← callbacks.draw held.random (.zero false) held.reportedLength with
      | .position position => Sequence.swap callbacks list slot position
      | .capacity => Sequence.swapCapacity callbacks list slot
    Agrees (fun state => state.containers.Provides list options) (visit surroundings.toCallbacks)
      (visit (surroundings.withOthers options others).toCallbacks) := by
  rintro visit state ⟨held, there, rfl⟩
  refine state_agrees there ?_
  have own : (surroundings.withOthers held.derivedOptions others).draw held.random =
      surroundings.draw held.random := if_pos rfl
  rw [own]
  rfl

theorem shuffle_withOthers :
    Agrees (fun state => state.containers.Provides list options)
      (Sequence.shuffle surroundings.toCallbacks list)
      (Sequence.shuffle (surroundings.withOthers options others).toCallbacks list) := by
  refine .bind (.refl _) (Keeps.requireLive list .shuffle) fun _ => ?_
  exact .visitAll (exchange_withOthers others upkeep) ((Keeps.list_state list).bind fun _ => .of_pure _)
    (upkeep.exchange trivial) rfl

variable (destructs : ∀ destructor value,
  Keeps (fun state => state.containers.Provides list options) (surroundings.destruct destructor value))

include destructs

theorem destroy_withOthers :
    Agrees (fun state => state.containers.Provides list options)
      (Sequence.destroy surroundings.toCallbacks list)
      (Sequence.destroy (surroundings.withOthers options others).toCallbacks list) := by
  have ends (notice : Notice) : Agrees (fun state => state.containers.Provides list options)
      (do
        Sequence.change list Sequence.release
        Sequence.notify surroundings.toCallbacks list notice)
      (do
        Sequence.change list Sequence.release
        Sequence.notify (surroundings.withOthers options others).toCallbacks list notice) :=
    .bind (.refl _) (upkeep.change trivial fun _ => .released) fun _ => notify_withOthers others notice
  refine .bind (.refl _) (Keeps.requireLive list .destroy) fun _ => ?_
  refine .bind (.refl _) (Keeps.list_state list) fun held => ?_
  split
  next destructor _ =>
    rw [destructFrom_withOthers]
    exact .bind (.refl _) (Contract.destructFrom destructs list destructor 0 held.length) fun _ => ends _
  next => exact ends _

theorem convertToOrderedSet_withOthers :
    Agrees (fun state => state.containers.Provides list options)
      (Sequence.convertToOrderedSet surroundings.toCallbacks list)
      (Sequence.convertToOrderedSet (surroundings.withOthers options others).toCallbacks list) := by
  have sets : IgnoresSets fun state : State Outside => state.containers.Provides list options :=
    fun _ _ provides => provides
  have makes := upkeep.toOrderedSet list fun values => upkeep.setOf sets values none none
  unfold Sequence.convertToOrderedSet
  rw [toOrderedSet_withOthers]
  refine .bind (.refl _) makes fun set => .bind (.refl _) (Keeps.list_state list) fun held => ?_
  refine .bind (.refl _) (Invariant.changeSet sets set _) fun _ => ?_
  refine .bind (.refl _) (upkeep.change trivial fun _ => .abandoned) fun _ => ?_
  refine .bind (.refl _) (Keeps.set_state set) fun _ => ?_
  refine .bind (notify_withOthers others _) (upkeep.trimming.notify list _) fun _ => ?_
  exact (destroy_withOthers others upkeep destructs).followed _

theorem perform_withOthers {operation : Operation} (edits : operation.edited? = some list) :
    Agrees (fun state => state.containers.Provides list options) (perform surroundings operation)
      (perform (surroundings.withOthers options others) operation) := by
  cases operation with
  | append _ value =>
    cases edits
    exact (append_withOthers others upkeep value).followed _
  | appendAll _ source =>
    cases edits
    exact (appendAll_withOthers others upkeep source).followed _
  | shuffle =>
    cases edits
    exact (shuffle_withOthers others upkeep).followed _
  | destroy | destroyIfPresent =>
    cases edits
    exact (destroy_withOthers others upkeep destructs).followed _
  | convertToOrderedSet =>
    cases edits
    exact (convertToOrderedSet_withOthers others upkeep destructs).followed _
  -- Other edits neither tell nor draw.
  | _ => cases edits <;> exact .refl _

end Depending

section Making

variable {α : Type} {before : State Outside} {list : Handle Sequence}

theorem requireLive_agrees {guard : ListOperation} {next later : Unit → Action Outside α}
    (live : ∀ held, before.containers.lists.cell? list = some held → next () before = later () before) :
    (Sequence.requireLive list guard >>= next) before =
      (Sequence.requireLive list guard >>= later) before := by
  cases lives : (before.containers.lists.get list).destroyed with
  | true =>
    have refused : Refused (Sequence.requireLive list guard) before guard := requireLive_refused lives guard
    exact (bind_error refused).trans (bind_error refused).symm
  | false =>
    have there := Sequence.there_of_live lives
    have checked := Sequence.requireLive_eq there lives guard
    exact (bind_ok checked).trans ((live _ there).trans (bind_ok checked).symm)

theorem making_agrees {given : ListOptions} {use useToo : Handle Sequence → Action Outside α}
    (agree : ∀ made, Agrees (fun state => state.containers.Provides made { given with destructor := none })
      (use made) (useToo made)) :
    (Sequence.empty given >>= use) before = (Sequence.empty given >>= useToo) before := by
  have provides := Table.cell?_added before.containers.lists (Sequence.create given)
  exact (bind_ok rfl).trans ((agree _ _ ⟨_, provides, rfl⟩).trans (bind_ok rfl).symm)

end Making

end Collections
