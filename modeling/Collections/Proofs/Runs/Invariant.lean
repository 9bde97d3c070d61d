import Collections.Proofs.Runs.Contract

set_option autoImplicit false

namespace Collections

variable {Outside : Type}

namespace State

abbrev withLists (state : State Outside) (lists : Table Sequence) : State Outside :=
  { state with containers := { state.containers with lists } }

abbrev withSets (state : State Outside) (sets : Table OrderedSet) : State Outside :=
  { state with containers := { state.containers with sets } }

abbrev withCursors (state : State Outside) (cursors : Table Cursor) : State Outside :=
  { state with containers := { state.containers with cursors } }

abbrev withTraversals (state : State Outside) (traversals : Table Traversal) : State Outside :=
  { state with containers := { state.containers with traversals } }

end State

namespace Sequence

/-- What a step of an operation makes of a list. Only live lists get elements and destructors. -/
inductive Edit (held : Sequence) : Sequence → Prop where
  | grown : Edit held held.grown
  | pushed (live : held.destroyed = false) (value : Value) : Edit held (held.push value)
  | written (slot : Nat) (value : Value) : Edit held (held.write slot value)
  | putAside (number : Number) (value : Value) :
      Edit held (held.putAside (.named number.toText) value)
  | shiftedOut (slot : Nat) : Edit held (held.shiftOut slot)
  | overwritten (values : List Value) : Edit held (held.overwrite values)
  | turned : Edit held held.turn
  | assigned (live : held.destroyed = false) (destructor : Option String) :
      Edit held { held with destructor }
  | abandoned : Edit held { held with destructor := none }
  | released : Edit held held.release

inductive Trim (held : Sequence) : Sequence → Prop where
  | shiftedOut (slot : Nat) : Trim held (held.shiftOut slot)
  | turned : Trim held held.turn
  | assigned (live : held.destroyed = false) (destructor : Option String) :
      Trim held { held with destructor }
  | abandoned : Trim held { held with destructor := none }
  | released : Trim held held.release

theorem Trim.edit {held after : Sequence} (trim : held.Trim after) : held.Edit after := by
  cases trim with
  | shiftedOut slot => exact .shiftedOut slot
  | turned => exact .turned
  | assigned live destructor => exact .assigned live destructor
  | abandoned => exact .abandoned
  | released => exact .released

inductive Fresh : Sequence → Prop where
  | empty (options : ListOptions) : Fresh (create options)
  | nulls (count : Nat) (negativeZero : Bool) (options : ListOptions)
      (zero : negativeZero = true → count = 0) :
      Fresh { create options with storage := .filled count .null, length := count, negativeZero }

end Sequence

/-- What changes of lists and calls keep, if only lists are edited that may be; new ones may. -/
structure Upkeep (surroundings : Surroundings Outside) (editable : Handle Sequence → Prop)
    (keeps : State Outside → Prop) : Prop extends Contract surroundings keeps where
  edits : ∀ {state : State Outside} {list : Handle Sequence} (step : Sequence → Sequence),
    editable list → keeps state →
      (∀ held, state.containers.lists.cell? list = some held → held.Edit (step held)) →
        keeps (state.withLists (state.containers.lists.modify list step))
  creates : ∀ {state : State Outside} {held : Sequence}, keeps state → held.Fresh →
    editable (state.containers.lists.add held).2 ∧
      keeps (state.withLists (state.containers.lists.add held).1)
  notifies : ∀ {state : State Outside} (logger : String) (notice : Notice), keeps state →
    keeps { state with outside := surroundings.notify logger notice state.outside }
  draws : ∀ source lower upper before, keeps before →
    Ends (surroundings.draw source lower upper) before
      (fun drawn after => (∃ number, drawn = .ofNumber number) ∧ keeps after) (fun _ => keeps)
  assigns : ∀ parent (number : Number) value before, keeps before →
    Ends (surroundings.assignAbove parent number.toText value) before
      (fun assigned after => (∀ linked, assigned ≠ .linked linked) ∧ keeps after) (fun _ => keeps)

structure Making (surroundings : Surroundings Outside) (grows : Handle Sequence → Prop)
    (keeps : State Outside → Prop) : Prop extends Contract surroundings keeps where
  creates : ∀ {state : State Outside} {held : Sequence}, keeps state → held.Fresh →
    grows (state.containers.lists.add held).2 ∧
      keeps (state.withLists (state.containers.lists.add held).1)
  appends : ∀ {list : Handle Sequence}, grows list → ∀ value,
    Keeps keeps (Sequence.append surroundings.toCallbacks list value)

structure Trimming (surroundings : Surroundings Outside) (editable : Handle Sequence → Prop)
    (keeps : State Outside → Prop) : Prop extends Contract surroundings keeps where
  trims : ∀ {state : State Outside} {list : Handle Sequence} (step : Sequence → Sequence),
    editable list → keeps state →
      (∀ held, state.containers.lists.cell? list = some held → held.Trim (step held)) →
        keeps (state.withLists (state.containers.lists.modify list step))
  notifies : ∀ {state : State Outside} (logger : String) (notice : Notice), keeps state →
    keeps { state with outside := surroundings.notify logger notice state.outside }

def IgnoresSets (keeps : State Outside → Prop) : Prop :=
  ∀ (state : State Outside) (sets : Table OrderedSet), keeps state → keeps (state.withSets sets)

def IgnoresCursors (keeps : State Outside → Prop) : Prop :=
  ∀ (state : State Outside) (cursors : Table Cursor), keeps state → keeps (state.withCursors cursors)

def IgnoresTraversals (keeps : State Outside → Prop) : Prop :=
  ∀ (state : State Outside) (traversals : Table Traversal), keeps state →
    keeps (state.withTraversals traversals)

structure Invariant (surroundings : Surroundings Outside) (editable : Handle Sequence → Prop)
    (keeps : State Outside → Prop) : Prop extends Upkeep surroundings editable keeps where
  cursors : IgnoresCursors keeps
  traversals : IgnoresTraversals keeps

structure Walks (keeps : State Outside → Prop) : Prop where
  starts : ∀ source, Keeps keeps (Traversal.start source : Action Outside (Handle Traversal))
  steps : ∀ traversal, Keeps keeps (Traversal.next traversal : Action Outside (Option Value))
  finishes : ∀ traversal, Keeps keeps (Traversal.finish traversal : Action Outside Unit)

namespace Walks

variable {keeps : State Outside → Prop}

theorem requireSource {traversal : Handle Traversal}
    (changes : ∀ step, Keeps keeps (Traversal.change traversal step : Action Outside Unit)) :
    Keeps keeps (Traversal.requireSource traversal : Action Outside Unit) := by
  refine (Keeps.traversal_state traversal).bind fun held => ?_
  split
  next list _ _ =>
    refine (Keeps.list_state list).bind fun _ => .ite ?_ (.of_pure _)
    exact (changes _).bind fun _ => .of_throw _
  · exact .of_pure _

theorem of_any (ignores : IgnoresTraversals keeps) : Walks keeps := by
  have changes (traversal : Handle Traversal) (step : Traversal → Traversal) :
      Keeps keeps (Traversal.change traversal step : Action Outside Unit) :=
    fun _ start => ignores _ _ start
  refine ⟨fun _ _ start => ignores _ _ start, fun traversal => ?_, fun traversal => changes traversal _⟩
  refine (requireSource (changes traversal)).bind fun _ => ?_
  refine (Keeps.traversal_state traversal).bind fun held => ?_
  refine .ite (.of_pure none) ((Keeps.itemCount held.source).bind fun _ => .ite ?_ ?_)
  · exact (changes traversal _).bind fun _ => (Keeps.item held.source _).bind fun _ => .of_pure _
  · exact (changes traversal _).bind fun _ => .of_pure none

variable (walks : Walks keeps) {α : Type} {visit : Value → Action Outside α}
  (visits : ∀ value, Keeps keeps (visit value))

include walks visits

theorem visitItems (traversal : Handle Traversal) (results : Array α) (growths remaining : Nat) :
    Keeps keeps (Traversal.visitItems traversal visit results growths remaining) := by
  induction results, growths, remaining using Traversal.visitItems.induct with
  | case1 results growths remaining ih =>
    rw [Traversal.visitItems]
    refine (walks.steps traversal).bind fun found => ?_
    cases found with
    | none => exact .of_pure results
    | some item =>
      have visiting : Keeps keeps (Traversal.visitItem traversal visit item) :=
        (visits item).tryCatch fun failure =>
          (walks.finishes traversal).bind fun _ => .of_throw failure
      exact visiting.bind fun result => ih result
  | case2 results growths ih =>
    rw [Traversal.visitItems]
    exact (Keeps.itemsLeft traversal).bind fun left => ih left
  | case3 results =>
    rw [Traversal.visitItems]
    exact .of_throw _

theorem visitAll (callbacks : Callbacks Outside) (traversal : Handle Traversal) :
    Keeps keeps (Traversal.visitAll callbacks traversal visit) :=
  (Keeps.itemsLeft traversal).bind fun _ => walks.visitItems visits traversal #[] _ _

end Walks

namespace Invariant

variable {keeps : State Outside → Prop} (sets : IgnoresSets keeps)

include sets

theorem changeSet (set : Handle OrderedSet) (step : OrderedSet → OrderedSet) :
    Keeps keeps (OrderedSet.change set step : Action Outside Unit) :=
  fun before start => sets before _ start

theorem addSet (held : OrderedSet) :
    Keeps keeps (OrderedSet.add held : Action Outside (Handle OrderedSet)) :=
  fun before start => sets before _ start

end Invariant

def Operation.edited? : Operation → Option (Handle Sequence)
  | .set list _ _ | .append list _ | .appendAll list _ | .setDestructor list _ | .remove list _
  | .removeFirst list | .pop list | .removeItem list _ | .reverse list | .sort list _ | .shuffle list
  | .convertToOrderedSet list | .destroy list => some list
  | .destroyIfPresent list => list
  | _ => none

def Operation.fills : Operation → Bool
  | .set .. | .append .. | .appendAll .. | .sort .. | .shuffle .. => true
  | _ => false

def Operation.makesList : Operation → Bool
  | .emptyList .. | .nullList .. | .listOf .. | .listOfTraversal .. | .join .. | .copy .. | .filter ..
  | .filterMembers .. | .filterOthers .. => true
  | _ => false

def Operation.changesSets : Operation → Bool
  | .toOrderedSet .. | .convertToOrderedSet .. | .emptySet .. | .setOf .. | .setOfTraversal ..
  | .insert .. | .erase .. | .setDestructorOfSet .. | .destroySet .. => true
  | _ => false

def Operation.movesCursors : Operation → Bool
  | .cursorOf .. | .cursorAt .. | .next .. | .previous .. | .copyCursor .. | .detach .. => true
  | _ => false

def Operation.tearsDown : Operation → Bool
  | .destroy .. | .destroyIfPresent .. | .destroySet .. => true
  | _ => false

namespace Keeps

variable {surroundings : Surroundings Outside} {keeps : State Outside → Prop}
  (destructs : ∀ destructor value, Keeps keeps (surroundings.destruct destructor value))

include destructs

theorem destroySet (set : Handle OrderedSet)
    (clears : Keeps keeps (OrderedSet.change set OrderedSet.cleared : Action Outside Unit)) :
    Keeps keeps (OrderedSet.destroy surroundings.toCallbacks set) := by
  refine (Keeps.set_state set).bind fun held => ?_
  split
  next destructor _ =>
    refine Keeps.bind (.visitAll ((Keeps.set_state set).bind fun _ => .of_pure _) fun position => ?_)
      fun _ => clears
    exact (Keeps.set_state set).bind fun _ => .ite (destructs destructor _) (.of_pure _)
  · exact clears

end Keeps

namespace Contract

variable {surroundings : Surroundings Outside} {keeps : State Outside → Prop}
  (contract : Contract surroundings keeps)

include contract

section Sets

variable {comparator : Option ComparatorId} {destructor : Option String}

theorem ofValues (values : List Value)
    (adds : ∀ items : Array Value, Keeps keeps (OrderedSet.add { items, comparator, destructor })) :
    Keeps keeps (OrderedSet.ofValues surroundings.toCallbacks values comparator destructor) :=
  (Keeps.sort (contract.below comparator) values).bind fun sorted =>
    (contract.keepDistinct comparator sorted #[]).bind adds

theorem toOrderedSet (list : Handle Sequence)
    (makes : ∀ values, Keeps keeps
      (OrderedSet.ofValues surroundings.toCallbacks values comparator none)) :
    Keeps keeps (Sequence.toOrderedSet surroundings.toCallbacks list comparator) :=
  (Keeps.requireLive list .toOrderedSet).bind fun _ => (contract.copyOut list).bind fun _ => makes _

variable (sets : IgnoresSets keeps)

include sets

theorem insert (set : Handle OrderedSet) (value : Value) :
    Keeps keeps (OrderedSet.insert surroundings.toCallbacks set value) :=
  (contract.locate set value).bind fun _ =>
    .ite (.of_pure false) ((Invariant.changeSet sets set _).bind fun _ => .of_pure true)

theorem erase (set : Handle OrderedSet) (value : Value) :
    Keeps keeps (OrderedSet.erase surroundings.toCallbacks set value) :=
  (contract.locate set value).bind fun _ =>
    .ite ((Invariant.changeSet sets set _).bind fun _ => .of_pure true) (.of_pure false)

theorem setOf (values : List Value) (comparator : Option ComparatorId)
    (destructor : Option String) :
    Keeps keeps (OrderedSet.ofValues surroundings.toCallbacks values comparator destructor) :=
  contract.ofValues values fun _ => Invariant.addSet sets _

end Sets

theorem perform_looks (walks : Walks keeps) {operation : Operation}
    (edits : operation.edited? = none) (makes : operation.makesList = false)
    (sets : operation.changesSets → IgnoresSets keeps)
    (destructs : operation.tearsDown → ∀ destructor value,
      Keeps keeps (surroundings.destruct destructor value))
    (moves : operation.movesCursors → Keeps keeps (perform surroundings operation)) :
    Keeps keeps (perform surroundings operation) := by
  cases operation with
  | lengthOf list => exact (Keeps.lengthOf list).bind fun _ => .of_pure _
  | get list index =>
    refine Keeps.bind ((Keeps.requireLive list .get).bind fun _ => ?_) fun _ => .of_pure _
    exact (Keeps.requireSlot list index).bind (Keeps.readSlot list)
  | destructorOf list => exact (Keeps.list_state list).bind fun _ => .of_pure _
  | peek list =>
    refine Keeps.bind ((Keeps.requireElement list .peek).bind fun _ => ?_) fun _ => .of_pure _
    exact (Keeps.list_state list).bind fun _ => .readSlot list _
  | indexOf list value => exact (Keeps.indexOf list value).bind fun _ => .of_pure _
  | contains list value =>
    exact ((Keeps.indexOf list value).bind fun _ => .of_pure _).bind fun _ => .of_pure _
  | toOrderedSet list comparator =>
    exact (contract.toOrderedSet list fun values => contract.setOf (sets rfl) values _ _).bind
      fun _ => .of_pure _
  | toList list => exact (contract.toList list).bind fun _ => .of_pure _
  | destroyIfPresent list =>
    cases edits
    exact .of_pure _
  | emptySet comparator destructor =>
    exact (Invariant.addSet (sets rfl) _).bind fun _ => .of_pure _
  | setOf values comparator destructor =>
    exact (contract.setOf (sets rfl) values comparator destructor).bind fun _ => .of_pure _
  | setOfTraversal traversal comparator destructor =>
    refine Keeps.bind ((walks.visitAll (fun _ => .of_pure _) _ traversal).bind fun values => ?_)
      fun _ => .of_pure _
    exact contract.setOf (sets rfl) values.toList comparator destructor
  | insert set value => exact (contract.insert (sets rfl) set value).bind fun _ => .of_pure _
  | find set value => exact (contract.find set value).bind fun _ => .of_pure _
  | holds set value => exact (contract.contains set value).bind fun _ => .of_pure _
  | erase set value => exact (contract.erase (sets rfl) set value).bind fun _ => .of_pure _
  | first set | last set | itemsOf set | destructorOfSet set =>
    exact (Keeps.set_state set).bind fun _ => .of_pure _
  | setDestructorOfSet set destructor =>
    exact (Invariant.changeSet (sets rfl) set _).bind fun _ => .of_pure _
  | destroySet set =>
    exact (Keeps.destroySet (destructs rfl) set (Invariant.changeSet (sets rfl) set _)).bind
      fun _ => .of_pure _
  | cursorOf | cursorAt | next | previous | copyCursor | detach => exact moves rfl
  | traverse source => exact (walks.starts source).bind fun _ => .of_pure _
  | advance traversal => exact (walks.steps traversal).bind fun _ => .of_pure _
  | finish traversal => exact (walks.finishes traversal).bind fun _ => .of_pure _
  | collect traversal =>
    exact (walks.visitAll (fun _ => .of_pure _) _ traversal).bind fun _ => .of_pure _
  | compare left right => exact (contract.orders left right).bind fun _ => .of_pure _
  | emptyList | nullList | listOf | listOfTraversal | join | copy | filter | filterMembers
  | filterOthers => cases makes
  | _ => cases edits

end Contract

namespace Making

variable {surroundings : Surroundings Outside} {grows : Handle Sequence → Prop}
  {keeps : State Outside → Prop} (making : Making surroundings grows keeps)

include making

theorem add {held : Sequence} {before : State Outside} (start : keeps before) (fresh : held.Fresh) :
    Succeeds (Sequence.add held) before fun made after => grows made ∧ keeps after :=
  ⟨_, _, rfl, making.creates start fresh⟩

theorem use {α : Type} {options : ListOptions} {use : Handle Sequence → Action Outside α}
    (uses : ∀ made, grows made → Keeps keeps (use made)) :
    Keeps keeps (Sequence.empty options >>= use) :=
  fun _ start => (making.add start (.empty options)).ends.bind fun made after told =>
    uses made told.1 after told.2

theorem withLength (length : Value) (options : ListOptions) :
    Keeps keeps (Sequence.withLength length options) := by
  unfold Sequence.withLength Sequence.ofNulls
  split
  next number =>
    split
    · exact .of_throw _
    · exact .of_throw _
    next count whole =>
      refine .ite (fun before start => ?_) (.of_throw _)
      refine (making.add start (.nulls count _ options fun negative => ?_)).ends.imp
        (fun _ _ told => told.2) fun _ _ failed => failed
      have zero := whole.symm.trans (Number.toInt?_of_isNegativeZero negative)
      simpa using zero
  · exact .of_throw _

theorem appendAll {list : Handle Sequence} (may : grows list) (source : Handle Sequence) :
    Keeps keeps (Sequence.appendAll surroundings.toCallbacks list source) :=
  .appendAll (making.appends may) source

theorem listOf (values : List Value) (options : ListOptions) :
    Keeps keeps (Sequence.ofValues surroundings.toCallbacks values options) :=
  making.use fun list may => (Keeps.forM (making.appends may) values).bind fun _ => .of_pure list

theorem listOfTraversal (walks : Walks keeps) (traversal : Handle Traversal) (options : ListOptions) :
    Keeps keeps (listOfTraversal surroundings traversal options) :=
  making.use fun list may =>
    (walks.visitAll (making.appends may) _ traversal).bind fun _ => .of_pure list

theorem join (lists : List (Option (Handle Sequence))) (options : ListOptions) :
    Keeps keeps (Sequence.join surroundings.toCallbacks lists options) :=
  making.use fun joined may =>
    (Keeps.forM (making.appendAll may) _).bind fun _ => .of_pure joined

theorem copy (list : Handle Sequence) (destructor : Option String) :
    Keeps keeps (Sequence.copy surroundings.toCallbacks list destructor) :=
  (Keeps.requireLive list .copy).bind fun _ => (Keeps.list_state list).bind fun _ =>
    making.use fun copied may => (making.appendAll may list).bind fun _ => .of_pure copied

theorem filter (list : Handle Sequence) {test : Value → Action Outside Bool}
    (tests : ∀ value, Keeps keeps (test value)) :
    Keeps keeps (Sequence.filter surroundings.toCallbacks list test) := by
  refine (Keeps.requireLive list .filter).bind fun _ => (Keeps.list_state list).bind fun _ => ?_
  refine making.use fun filtered may => ?_
  refine Keeps.bind (.visitAll ((Keeps.list_state list).bind fun _ => .of_pure _) fun slot => ?_)
    fun _ => .of_pure filtered
  exact (Keeps.readSlot list slot).bind fun value => (tests value).bind fun _ =>
    .ite (making.appends may value) (.of_pure _)

theorem perform_makes (walks : Walks keeps) {operation : Operation} (makes : operation.makesList = true) :
    Keeps keeps (perform surroundings operation) := by
  cases operation with
  | emptyList options => exact making.use fun _ _ => .of_pure _
  | nullList length options => exact (making.withLength length options).bind fun _ => .of_pure _
  | listOf values options => exact (making.listOf values options).bind fun _ => .of_pure _
  | listOfTraversal traversal options =>
    exact (making.listOfTraversal walks traversal options).bind fun _ => .of_pure _
  | join lists options => exact (making.join lists options).bind fun _ => .of_pure _
  | copy list destructor => exact (making.copy list destructor).bind fun _ => .of_pure _
  | filter list predicate =>
    exact (making.filter list (making.tests predicate)).bind fun _ => .of_pure _
  | filterMembers list members =>
    have tests (value : Value) := Keeps.isMember (making.isAmong members) value
    exact (making.filter list tests).bind fun _ => .of_pure _
  | filterOthers list members =>
    have tests (value : Value) := (Keeps.isMember (making.isAmong members) value).bind
      fun member => .of_pure !member
    exact (making.filter list tests).bind fun _ => .of_pure _
  | _ => cases makes

end Making

namespace Trimming

variable {surroundings : Surroundings Outside} {editable : Handle Sequence → Prop}
  {keeps : State Outside → Prop} (trimming : Trimming surroundings editable keeps)

include trimming

section Lists

variable {list : Handle Sequence} (may : editable list)

theorem notify (list : Handle Sequence) (notice : Notice) :
    Keeps keeps (Sequence.notify surroundings.toCallbacks list notice) := by
  refine (Keeps.list_state list).bind fun held before start => ?_
  split
  · exact trimming.notifies _ notice start
  · exact start

theorem notify_live {before : State Outside} (start : keeps before) (notice : Notice) :
    Succeeds (Sequence.notify surroundings.toCallbacks list notice) before fun _ after =>
      keeps after ∧ after.containers = before.containers := by
  apply Succeeds.bind_eq rfl
  split
  · exact ⟨(), _, rfl, trimming.notifies _ notice start, rfl⟩
  · exact Succeeds.of_pure ⟨start, rfl⟩

include may

theorem change {step : Sequence → Sequence} (trims : ∀ held : Sequence, held.Trim (step held)) :
    Keeps keeps (Sequence.change list step) :=
  fun _ start => trimming.trims step may start fun held _ => trims held

theorem release (notice : Notice) :
    Keeps keeps (do
      Sequence.change list Sequence.release
      Sequence.notify surroundings.toCallbacks list notice) :=
  (trimming.change may fun _ => .released).bind fun _ => trimming.notify list notice

theorem takeOut (slot : Nat) :
    Keeps keeps (Sequence.takeOut list slot : Action Outside Value) :=
  (Keeps.readSlot list slot).bind fun value =>
    (trimming.change may fun _ => .shiftedOut slot).bind fun _ => .of_pure value

theorem setDestructor (destructor : Option String) :
    Keeps keeps (Sequence.setDestructor list destructor) := by
  refine fun _ start => Sequence.requireLive_bind start fun held there live => ?_
  refine trimming.trims _ may start fun now thereToo => ?_
  cases there.symm.trans thereToo
  exact .assigned live destructor

theorem remove (index : Value) :
    Keeps keeps (Sequence.remove list index : Action Outside Value) :=
  (Keeps.requireLive list .remove).bind fun _ =>
    (Keeps.requireSlot list index).bind (trimming.takeOut may)

theorem pop : Keeps keeps (Sequence.pop list : Action Outside Value) :=
  (Keeps.requireElement list .pop).bind fun _ => (Keeps.list_state list).bind fun _ =>
    trimming.takeOut may _

theorem removeItem (value : Value) :
    Keeps keeps (Sequence.removeItem list value : Action Outside Bool) := by
  refine (Keeps.indexOf list value).bind fun found => ?_
  split
  · exact (trimming.takeOut may _).bind fun _ => .of_pure true
  · exact .of_pure false

theorem reverse : Keeps keeps (Sequence.reverse list : Action Outside Unit) :=
  (Keeps.requireLive list .reverse).bind fun _ => trimming.change may fun _ => .turned

end Lists

section Teardown

-- The list gives up its destructor first, so there is none to call when it is destroyed.
theorem convertToOrderedSet {list : Handle Sequence} (may : editable list)
    (makes : Keeps keeps (Sequence.toOrderedSet surroundings.toCallbacks list none))
    (gives : ∀ set destructor,
      Keeps keeps (OrderedSet.setDestructor set destructor : Action Outside Unit)) :
    Keeps keeps (Sequence.convertToOrderedSet surroundings.toCallbacks list) := by
  refine makes.bind fun set => ?_
  refine (Keeps.list_state list).bind fun held => ?_
  refine (gives set held.destructor).bind fun _ before start => ?_
  let bare (state : State Outside) :=
    keeps state ∧ (state.containers.lists.get list).destructor = none
  have abandons : Succeeds (Sequence.change list ({ · with destructor := none })) before
      fun _ => bare := by
    refine ⟨(), _, rfl, trimming.trims _ may start fun _ _ => .abandoned, ?_⟩
    cases there : before.containers.lists.cell? list with
    | none =>
      rw [Table.get_of_cell?_eq_none (by dsimp only; rw [Table.cell?_modify, if_pos rfl, there]; rfl)]
      rfl
    | some given =>
      rw [Table.get_of_cell? (by dsimp only; rw [Table.cell?_modify, if_pos rfl, there]; rfl)]
  refine abandons.ends.bind fun _ abandoned told => Ends.bind_eq rfl ?_
  refine (trimming.notify_live told.1 _).ends.bind fun _ notified tells => ?_
  have destroys : Ends (Sequence.destroy surroundings.toCallbacks list) notified (fun _ => keeps)
      (fun _ => keeps) := by
    refine Sequence.requireLive_bind tells.1 fun _ _ _ => Ends.bind_eq rfl ?_
    rw [tells.2, told.2]
    exact (trimming.release may _) notified tells.1
  exact destroys.bind fun _ _ kept => kept

variable (destructs : ∀ destructor value, Keeps keeps (surroundings.destruct destructor value))

include destructs

theorem destroy {list : Handle Sequence} (may : editable list) :
    Keeps keeps (Sequence.destroy surroundings.toCallbacks list) := by
  refine (Keeps.requireLive list .destroy).bind fun _ => (Keeps.list_state list).bind fun held => ?_
  split
  · exact (Contract.destructFrom destructs list _ 0 held.length).bind fun _ => trimming.release may _
  · exact trimming.release may _

end Teardown

theorem perform_trims {operation : Operation} {list : Handle Sequence}
    (edits : operation.edited? = some list) (fills : operation.fills = false) (may : editable list)
    (sets : operation.changesSets → IgnoresSets keeps)
    (destructs : operation.tearsDown → ∀ destructor value,
      Keeps keeps (surroundings.destruct destructor value)) :
    Keeps keeps (perform surroundings operation) := by
  cases operation with
  | setDestructor other destructor =>
    cases edits
    exact (trimming.setDestructor may destructor).bind fun _ => .of_pure _
  | remove other index => cases edits; exact (trimming.remove may index).bind fun _ => .of_pure _
  | removeFirst other => cases edits; exact (trimming.remove may _).bind fun _ => .of_pure _
  | pop other => cases edits; exact (trimming.pop may).bind fun _ => .of_pure _
  | removeItem other value => cases edits; exact (trimming.removeItem may value).bind fun _ => .of_pure _
  | reverse other => cases edits; exact (trimming.reverse may).bind fun _ => .of_pure _
  | convertToOrderedSet other =>
    cases edits
    have makes := trimming.toOrderedSet list fun values => trimming.setOf (sets rfl) values none none
    exact (trimming.convertToOrderedSet may makes fun set _ =>
      Invariant.changeSet (sets rfl) set _).bind fun _ => .of_pure _
  | destroy other => cases edits; exact (trimming.destroy (destructs rfl) may).bind fun _ => .of_pure _
  | destroyIfPresent other =>
    cases edits
    exact (trimming.destroy (destructs rfl) may).bind fun _ => .of_pure _
  | set | append | appendAll | sort | shuffle => cases fills
  | _ => cases edits

end Trimming

namespace Upkeep

variable {surroundings : Surroundings Outside} {editable : Handle Sequence → Prop}
  {keeps : State Outside → Prop} (upkeep : Upkeep surroundings editable keeps)

include upkeep

theorem trimming : Trimming surroundings editable keeps where
  toContract := upkeep.toContract
  trims step may start trims := upkeep.edits step may start fun held there => (trims held there).edit
  notifies := upkeep.notifies

section Lists

variable {list : Handle Sequence} (may : editable list)

include may

theorem change {step : Sequence → Sequence} (edits : ∀ held : Sequence, held.Edit (step held)) :
    Keeps keeps (Sequence.change list step) :=
  fun _ start => upkeep.edits step may start fun held _ => edits held

theorem change_live {held : Sequence} {step : Sequence → Sequence} {before : State Outside}
    (start : keeps before)
    (there : before.containers.lists.cell? list = some held) (edits : held.Edit (step held)) :
    Succeeds (Sequence.change list step) before fun _ after =>
      keeps after ∧ after.containers.lists.cell? list = some (step held) := by
  refine ⟨(), _, rfl, upkeep.edits step may start fun found thereToo => ?_, ?_⟩
  · rw [there] at thereToo
    cases thereToo
    exact edits
  · dsimp only
    rw [Table.cell?_modify, if_pos rfl, there]
    rfl

theorem append (value : Value) :
    Keeps keeps (Sequence.append surroundings.toCallbacks list value) := by
  intro before start
  have pushing {room : Sequence} {ready : State Outside} (kept : keeps ready)
      (there : ready.containers.lists.cell? list = some room) (live : room.destroyed = false) :
      Ends (Sequence.change list (·.push value)) ready (fun _ => keeps) (fun _ => keeps) :=
    (upkeep.change_live may kept there (.pushed live value)).ends.imp
      (fun _ _ pushed => pushed.1) fun _ _ failed => failed
  refine Sequence.requireLive_bind start fun held there live => ?_
  apply Ends.bind_eq rfl
  split
  next full =>
    refine (upkeep.change_live may start there .grown).ends.bind fun _ grew told => ?_
    refine (upkeep.trimming.notify_live told.1 _).ends.bind fun _ ready tells => ?_
    have grown : held.grown.destroyed = false := live
    exact pushing tells.1 (tells.2 ▸ told.2) grown
  next => exact pushing start there live

theorem set (index value : Value) :
    Keeps keeps (Sequence.set list index value) :=
  (Keeps.requireLive list .set).bind fun _ => (Keeps.requireSlot list index).bind fun slot =>
    upkeep.change may fun _ => .written slot value

theorem sort (comparator : Option ComparatorId) :
    Keeps keeps (Sequence.sort surroundings.toCallbacks list comparator) := by
  have compares (left right : Value) :
      Keeps keeps (Sequence.below surroundings.toCallbacks comparator left right) := by
    cases comparator with
    | none => exact .of_throw _
    | some comparator => exact upkeep.below (some comparator) left right
  refine (Keeps.requireLive list .sort).bind fun _ => (upkeep.copyOut list).bind fun held => ?_
  refine (Keeps.sort compares _).bind fun sorted => ?_
  refine (upkeep.change may fun _ => .overwritten sorted).bind fun _ => ?_
  exact .ite (.of_throw _) (.of_pure _)

theorem writeAt (number : Number) (value : Value) :
    Keeps keeps (Sequence.writeAt surroundings.toCallbacks list (.ofNumber number) value) := by
  have putting := upkeep.change may fun _ => .putAside number value
  unfold Position.ofNumber
  split
  next slot _ => exact upkeep.change may fun _ => .written slot value
  next =>
    intro before start
    apply Ends.bind_eq rfl
    split
    · exact putting before start
    · refine (upkeep.assigns _ number value before start).bind fun assigned after told => ?_
      cases assigned with
      | kept => exact putting after told.2
      | linked parent => exact (told.1 parent rfl).elim
      | gone => exact told.2

theorem exchange (slot : Nat) :
    Keeps keeps (do
      let held ← Sequence.state list
      match ← surroundings.draw held.random (.zero false) held.reportedLength with
      | .position position => Sequence.swap surroundings.toCallbacks list slot position
      | .capacity => Sequence.swapCapacity surroundings.toCallbacks list slot) := by
  refine (Keeps.list_state list).bind fun held before start => ?_
  refine (upkeep.draws held.random (.zero false) held.reportedLength before start).bind
    fun drawn after told => ?_
  obtain ⟨⟨number, rfl⟩, kept⟩ := told
  have swaps : Keeps keeps
      (Sequence.swap surroundings.toCallbacks list slot (.ofNumber number)) :=
    (Keeps.readSlot list slot).bind fun value =>
      (upkeep.readAt list (.ofNumber number)).bind fun drawn =>
        (upkeep.change may fun _ => .written slot drawn).bind fun _ =>
          upkeep.writeAt may number value
  exact swaps after kept

theorem shuffle :
    Keeps keeps (Sequence.shuffle surroundings.toCallbacks list) :=
  (Keeps.requireLive list .shuffle).bind fun _ => .visitAll
    ((Keeps.list_state list).bind fun _ => .of_pure _) (upkeep.exchange may)

end Lists

section Performing

theorem making : Making surroundings editable keeps where
  toContract := upkeep.toContract
  creates := upkeep.creates
  appends := upkeep.append

theorem perform_edits {operation : Operation} {list : Handle Sequence}
    (edits : operation.edited? = some list) (may : editable list)
    (sets : operation.changesSets → IgnoresSets keeps)
    (destructs : operation.tearsDown → ∀ destructor value,
      Keeps keeps (surroundings.destruct destructor value)) :
    Keeps keeps (perform surroundings operation) := by
  cases operation with
  | set other index value => cases edits; exact (upkeep.set may index value).bind fun _ => .of_pure _
  | append other value => cases edits; exact (upkeep.append may value).bind fun _ => .of_pure _
  | appendAll other source =>
    cases edits
    exact (upkeep.making.appendAll may source).bind fun _ => .of_pure _
  | sort other comparator => cases edits; exact (upkeep.sort may comparator).bind fun _ => .of_pure _
  | shuffle other => cases edits; exact (upkeep.shuffle may).bind fun _ => .of_pure _
  | _ => exact upkeep.trimming.perform_trims edits rfl may sets destructs

theorem perform_keeps (walks : Walks keeps) (operation : Operation)
    (may : ∀ list, operation.edited? = some list → editable list)
    (sets : operation.changesSets → IgnoresSets keeps)
    (destructs : operation.tearsDown → ∀ destructor value,
      Keeps keeps (surroundings.destruct destructor value))
    (moves : operation.movesCursors → Keeps keeps (perform surroundings operation)) :
    Keeps keeps (perform surroundings operation) := by
  cases edits : operation.edited? with
  | some list => exact upkeep.perform_edits edits (may list edits) sets destructs
  | none =>
    cases makes : operation.makesList with
    | true => exact upkeep.making.perform_makes walks makes
    | false => exact upkeep.perform_looks walks edits makes sets destructs moves

end Performing

end Upkeep

namespace IgnoresCursors

variable {keeps : State Outside → Prop} (ignores : IgnoresCursors keeps)

include ignores

theorem change (cursor : Handle Cursor) (step : Cursor → Cursor) :
    Keeps keeps (Cursor.change cursor step : Action Outside Unit) :=
  fun _ start => ignores _ _ start

theorem add (cursor : Cursor) : Keeps keeps (Cursor.add cursor : Action Outside (Handle Cursor)) :=
  fun _ start => ignores _ _ start

theorem moveTo (cursor : Handle Cursor) (step : Cursor → Cursor) (list : Handle Sequence)
    (index : Nat) :
    Keeps keeps (do
      Cursor.change cursor step
      return some (← Cursor.elementAt list index) : Action Outside (Option Value)) :=
  (ignores.change cursor step).bind fun _ =>
    (Keeps.elementAt list index).bind fun _ => .of_pure _

theorem next (cursor : Handle Cursor) :
    Keeps keeps (Cursor.next cursor : Action Outside (Option Value)) := by
  refine (Keeps.cursor_state cursor).bind fun held => ?_
  split
  · exact .of_pure none
  · exact .of_throw _
  next list _ =>
    exact (Keeps.list_state list).bind fun _ => .ite (.of_pure none) (ignores.moveTo cursor _ list _)

theorem previous (cursor : Handle Cursor) :
    Keeps keeps (Cursor.previous cursor : Action Outside (Option Value)) := by
  refine (Keeps.cursor_state cursor).bind fun held => ?_
  split
  next list index _ _ => exact ignores.moveTo cursor _ list index
  · exact .of_pure none

theorem move_keeps (surroundings : Surroundings Outside) {operation : Operation}
    (moves : operation.movesCursors) : Keeps keeps (perform surroundings operation) := by
  cases operation with
  | cursorOf list =>
    refine Keeps.bind ((Keeps.requireLive list .cursor).bind fun _ => ?_) fun _ => .of_pure _
    exact ignores.add _
  | cursorAt target => exact (ignores.add _).bind fun _ => .of_pure _
  | next cursor => exact (ignores.next cursor).bind fun _ => .of_pure _
  | previous cursor => exact (ignores.previous cursor).bind fun _ => .of_pure _
  | copyCursor cursor =>
    have copies := (Keeps.cursor_state cursor).bind fun held => ignores.add held
    exact copies.bind fun _ => .of_pure _
  | detach cursor => exact (ignores.change cursor _).bind fun _ => .of_pure _
  | _ => cases moves

end IgnoresCursors

namespace Invariant

variable {surroundings : Surroundings Outside} {editable : Handle Sequence → Prop}
  {keeps : State Outside → Prop} (invariant : Invariant surroundings editable keeps)

include invariant

theorem visitAll {α : Type} {visit : Value → Action Outside α} (visits : ∀ value, Keeps keeps (visit value))
    (traversal : Handle Traversal) :
    Keeps keeps (Traversal.visitAll surroundings.toCallbacks traversal visit) :=
  (Walks.of_any invariant.traversals).visitAll visits _ traversal

theorem perform_keeps (operation : Operation)
    (may : ∀ list, operation.edited? = some list → editable list)
    (sets : operation.changesSets → IgnoresSets keeps)
    (destructs : operation.tearsDown → ∀ destructor value,
      Keeps keeps (surroundings.destruct destructor value)) :
    Keeps keeps (perform surroundings operation) :=
  invariant.toUpkeep.perform_keeps (.of_any invariant.traversals) operation may sets destructs
    fun moves => invariant.cursors.move_keeps surroundings moves

end Invariant

end Collections
