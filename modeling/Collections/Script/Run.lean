import Collections.Cursor.Operations
import Collections.Script.Session

set_option autoImplicit false

namespace Collections.Script

inductive Product where
  | result (result : Result)
  | made (made : Variable)

namespace Product

def void : Product := .result .void

def value (value : Value) : Product := .result (.value value)

def number (number : Number) : Product := value (.number number)

def flag (flag : Bool) : Product := value (.bool flag)

def name (name : Option String) : Product :=
  value <| match name with
    | some name => .text name
    | none => .null

def position (position : Option Nat) : Product :=
  value <| .number <| match position with
    | some position => .ofNat position
    | none => .ofInt (-1)

def element (element : Option Value) : Product := value (element.getD .null)

def advanced (item : Option Value) : Product :=
  .result (.advanced item.isNone (item.getD .undefined))

end Product

def listVariable (name : String) : Action Session (Handle Sequence) := do
  match ← binding? name with
  | some (.list list) => return list
  | _ => throw .unsupported

def optionalList (name : Option String) : Action Session (Option (Handle Sequence)) := do
  match name with
  | some name => return some (← listVariable name)
  | none => return none

def optionalLists :
    List (Option String) → Action Session (List (Option (Handle Sequence)))
  | [] => return []
  | name :: names => return (← optionalList name) :: (← optionalLists names)

def traversalOf (name : String) : Action Session (Handle Traversal) := do
  match ← binding? name with
  | some (.list list) => Traversal.start (.list list)
  | some (.set set) => Traversal.start (.set set)
  | some (.traversal traversal) => return traversal
  | _ => throw .unsupported

def visitGiven {α : Type} (visit : Value → Action Session α) (results : Array α) :
    List Value → Action Session (Array α)
  | [] => return results
  | value :: rest => do visitGiven visit (results.push (← visit value)) rest

def visitMade {α : Type} (visit : Value → Action Session α) (results : Array α) :
    List Literal → Action Session (Array α)
  | [] => return results
  | literal :: rest => do visitMade visit (results.push (← visit (← make literal))) rest

def visitValues {α : Type} (callbacks : Callbacks Session) (values : Values)
    (visit : Value → Action Session α) : Action Session (Array α) := do
  match values with
  | .given values => visitGiven visit #[] (← makeAll values)
  | .members values => visitGiven visit #[] (Value.distinct (← makeAll values))
  | .failing values =>
      let _ ← visitMade visit #[] values
      throw (.thrown "iter failed")
  | .plain values => visitGiven visit #[] values
  | .variable name => Traversal.visitAll callbacks (← traversalOf name) visit

def appendMany (callbacks : Callbacks Session) (list : Handle Sequence) (values : Values) :
    Action Session Unit := do
  let _ ← visitValues callbacks values (Sequence.append callbacks list)

def membership (callbacks : Callbacks Session) (members : Membership) :
    Action Session (Value → Action Session Bool) := do
  match members with
  | .among values =>
      let values ← makeAll values
      return fun value => return values.any fun member => member.alike value
  | .variable name =>
      match ← binding? name with
      | some (.set set) => return OrderedSet.contains callbacks set
      | _ => throw .unsupported

def collect (callbacks : Callbacks Session) (source : TraversalSource) :
    Action Session (Array Value) := do
  Traversal.visitAll callbacks (← Traversal.start source) pure

def requestOfList (run : Runner) (callbacks : Callbacks Session)
    (list : Handle Sequence) : Request → Action Session Product
  | .length => return .number (← Sequence.state list).reportedLength
  | .capacity => return .number (.ofNat (← Sequence.state list).capacity)
  | .isDestroyed => return .flag (← Sequence.state list).destroyed
  | .get index => return .value (← Sequence.get list (← make index))
  | .set index value => do
      let index ← make index
      Sequence.set list index (← make value)
      return .void
  | .append value => do
      Sequence.append callbacks list (← make value)
      return .void
  | .appendMany values => do
      appendMany callbacks list values
      return .void
  | .appendAll source => do
      Sequence.appendAll callbacks list (← listVariable source)
      return .void
  | .getDestructor => return .name (← Sequence.state list).destructor
  | .setDestructor destructor => do
      Sequence.setDestructor list (← mentionDestructor destructor)
      return .void
  | .remove index => return .value (← Sequence.remove list (← make index))
  | .removeFirst => return .value (← Sequence.removeFirst list)
  | .pop => return .value (← Sequence.pop list)
  | .removeItem value => return .flag (← Sequence.removeItem list (← make value))
  | .peek => return .value (← Sequence.peek list)
  | .indexOf value => return .position (← Sequence.indexOf list (← make value))
  | .contains value => return .flag (← Sequence.contains list (← make value))
  | .copy destructor => do
      return .made (.list (← Sequence.copy callbacks list (← mentionDestructor destructor)))
  | .reverse => do
      Sequence.reverse list
      return .void
  | .sort comparator => do
      Sequence.sort callbacks list (← createComparator comparator)
      return .void
  | .shuffle => do
      Sequence.shuffle callbacks list
      return .void
  | .toOrderedSet comparator => do
      return .made (.set (← Sequence.toOrderedSet callbacks list (← createComparator comparator)))
  | .filter predicate => do
      let predicate ← createPredicate predicate
      return .made (.list (← Sequence.filter callbacks list (test run predicate)))
  | .filterMembers members => do
      let member ← membership callbacks members
      return .made (.list (← Sequence.filterMembers callbacks list member))
  | .filterOthers members => do
      let member ← membership callbacks members
      return .made (.list (← Sequence.filterOthers callbacks list member))
  | .convertToOrderedSet => return .made (.set (← Sequence.convertToOrderedSet callbacks list))
  | .cursor => return .made (.cursor (← Cursor.ofList list))
  | .toList => return .result (.values (← Sequence.toList callbacks list).toArray)
  | .destroy => do
      Sequence.destroy callbacks list
      return .void
  | .traverse => return .made (.traversal (← Traversal.start (.list list)))
  | .collect => return .result (.values (← collect callbacks (.list list)))
  | _ => throw .unsupported

def requestOfSet (callbacks : Callbacks Session) (set : Handle OrderedSet) :
    Request → Action Session Product
  | .size => return .number (.ofNat (← OrderedSet.state set).items.size)
  | .insert value => return .flag (← OrderedSet.insert callbacks set (← make value))
  | .insertMany values => do
      let inserted ← visitValues callbacks values (OrderedSet.insert callbacks set)
      return .result (.values (inserted.map .bool))
  | .find value => return .value (← OrderedSet.find callbacks set (← make value))
  | .contains value => return .flag (← OrderedSet.contains callbacks set (← make value))
  | .erase value => return .flag (← OrderedSet.erase callbacks set (← make value))
  | .first => return .value (← OrderedSet.state set).first
  | .last => return .value (← OrderedSet.state set).last
  | .getDestructor => return .name (← OrderedSet.state set).destructor
  | .setDestructor destructor => do
      OrderedSet.setDestructor set (← mentionDestructor destructor)
      return .void
  | .toList => return .result (.values (← OrderedSet.state set).items)
  | .destroy => do
      OrderedSet.destroy callbacks set
      return .void
  | .traverse => return .made (.traversal (← Traversal.start (.set set)))
  | .collect => return .result (.values (← collect callbacks (.set set)))
  | _ => throw .unsupported

def requestOfCursor (cursor : Handle Cursor) : Request → Action Session Product
  | .next => return .element (← Cursor.next cursor)
  | .previous => return .element (← Cursor.previous cursor)
  | .copyCursor => return .made (.cursor (← Cursor.copy cursor))
  | .position => return .number (.ofNat (← Cursor.state cursor).index)
  | .destroy => do
      Cursor.detach cursor
      return .void
  | _ => throw .unsupported

def requestOfTraversal (callbacks : Callbacks Session) (traversal : Handle Traversal) :
    Request → Action Session Product
  | .advance => return .advanced (← Traversal.next traversal)
  | .close => do
      Traversal.finish traversal
      return .advanced none
  | .traverse => return .made (.traversal traversal)
  | .collect => return .result (.values (← Traversal.visitAll callbacks traversal pure))
  | _ => throw .unsupported

def perform (run : Runner) (callbacks : Callbacks Session) (step : Step) :
    Action Session Product := do
  match step.command with
  | .emptyList options => return .made (.list (← Sequence.empty (← createOptions options)))
  | .listOfLength length options =>
      let length ← make length
      return .made (.list (← Sequence.withLength length (← createOptions options)))
  | .listOfValues values options =>
      let list ← Sequence.empty (← createOptions options)
      appendMany callbacks list values
      return .made (.list list)
  | .joinLists lists options =>
      let lists ← optionalLists lists
      return .made (.list (← Sequence.join callbacks lists (← createOptions options)))
  | .emptySet comparator destructor =>
      let comparator ← createComparator comparator
      return .made (.set (← OrderedSet.empty comparator (← mentionDestructor destructor)))
  | .setOfValues values comparator destructor =>
      let comparator ← createComparator comparator
      let destructor ← mentionDestructor destructor
      let values ← visitValues callbacks values pure
      return .made (.set (← OrderedSet.ofValues callbacks values.toList comparator destructor))
  | .cursor list =>
      let target := match ← optionalList list with
        | some list => CursorTarget.list list
        | none => .detached
      return .made (.cursor (← Cursor.before target))
  | .cursorOverUndefined => return .made (.cursor (← Cursor.before .undefined))
  | .lengthOf list => return .number (← Sequence.lengthOf (← optionalList list))
  | .destroyIfPresent list =>
      Sequence.destroyIfPresent callbacks (← optionalList list)
      return .void
  | .compare left right =>
      let left ← make left
      return .number (.ofInt (← naturalOrder left (← make right)))
  | .request request =>
      match ← binding? (step.target.getD "") with
      | some (.list list) => requestOfList run callbacks list request
      | some (.set set) => requestOfSet callbacks set request
      | some (.cursor cursor) => requestOfCursor cursor request
      | some (.traversal traversal) => requestOfTraversal callbacks traversal request
      | none => throw .unsupported

def conclude (step : Step) (product : Product) : Action Session Result := do
  match product with
  | .result result => return result
  | .made made =>
      let name := step.binding.getD ""
      bind name made
      return .bound name

def shownElements (callbacks : Callbacks Session) (list : Handle Sequence) :
    Action Session (List Value) := do
  if (← Sequence.state list).destroyed then return []
  else Sequence.toList callbacks list

def snapshot (callbacks : Callbacks Session) : Variable → Action Session Snapshot
  | .list list => do
      let held ← Sequence.state list
      let elements ← shownElements callbacks list
      return .list held.length held.capacity held.destroyed held.destructor elements
  | .set set => do
      let held ← OrderedSet.state set
      return .set held.destructor held.items
  | .cursor cursor => return .cursor (← Cursor.state cursor).index
  | .traversal _ => return .traversal

def snapshotOf (callbacks : Callbacks Session) (name : Option String) :
    Action Session (Option Snapshot) := do
  match name with
  | none => return none
  | some name =>
      match ← binding? name with
      | some held => return some (← snapshot callbacks held)
      | none => return none

def outcomeOf {α : Type} (action : Action Session α) : Action Session (Except Failure α) :=
  tryCatch (.ok <$> action) fun failure =>
    if failure = .endless then throw failure else return .error failure

def shownState (callbacks : Callbacks Session) (step : Step) :
    Action Session (Option Snapshot) := do
  match ← snapshotOf callbacks step.binding with
  | some bound => return some bound
  | none => snapshotOf callbacks step.target

def answer (run : Runner) (callbacks : Callbacks Session) (step : Step) :
    Action Session Answer := do
  let before := (← session).events
  changeSession ({ · with events := #[] })
  let outcome ← outcomeOf do conclude step (← perform run callbacks step)
  let events := (← session).events.toList
  changeSession ({ · with events := before })
  return { outcome, snapshot := (← shownState callbacks step), events }

def answerAll (run : Runner) (callbacks : Callbacks Session) :
    List Step → Action Session (List Answer)
  | [] => return []
  | step :: steps =>
      return (← answer run callbacks step) :: (← answerAll run callbacks steps)

def runSteps (program : Program) : Nat → List Step → Action Session (List Answer)
  | 0, steps =>
      let run : Runner := fun _ => throw .endless
      answerAll run (callbacks run) steps
  | depth + 1, steps =>
      let run : Runner := fun script => runSteps program depth (program.script script)
      answerAll run (callbacks run) steps

structure Report where
  answers : List Answer
  finals : List (String × Snapshot)
  heap : Heap

def snapshots (callbacks : Callbacks Session) :
    List (String × Variable) → Action Session (List (String × Snapshot))
  | [] => return []
  | (name, held) :: rest =>
      return (name, ← snapshot callbacks held) :: (← snapshots callbacks rest)

def runAll (program : Program) : Action Session Report := do
  let answers ← runSteps program program.scripts.size program.steps
  let bindings := Text.sortByKey (← session).bindings
  let finals ← snapshots (callbacks fun _ => throw .endless) bindings
  return { answers, finals, heap := (← session).heap }

def Program.run (heap : Heap) (program : Program) : Except Failure Report :=
  match (runAll program).run { outside := { heap, uniform := program.uniform } } with
  | .ok report _ => .ok report
  | .error failure _ => .error failure

end Collections.Script
