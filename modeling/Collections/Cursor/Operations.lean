import Collections.Sequence.Operations

set_option autoImplicit false

namespace Collections

variable {Outside : Type}

namespace Cursor

def state (cursor : Handle Cursor) : Action Outside Cursor := do
  return (← containers).cursors.get cursor

def change (cursor : Handle Cursor) (step : Cursor → Cursor) : Action Outside Unit :=
  changeContainers fun held =>
    { held with cursors := held.cursors.modify cursor step }

def add (cursor : Cursor) : Action Outside (Handle Cursor) :=
  modifyGet fun state =>
    let (cursors, handle) := state.containers.cursors.add cursor
    (handle, { state with containers := { state.containers with cursors } })

def before (target : CursorTarget) : Action Outside (Handle Cursor) := add { target }

def ofList (list : Handle Sequence) : Action Outside (Handle Cursor) := do
  Sequence.requireLive list .cursor
  before (.list list)

def elementAt (list : Handle Sequence) (index : Nat) : Action Outside Value := do
  Sequence.requireLive list .get
  let held ← Sequence.state list
  if index < held.length then return held.storage.read index
  else throw (.list (.indexOutOfRange (.number (.ofNat index)) held.reportedLength))

def next (cursor : Handle Cursor) : Action Outside (Option Value) := do
  let held ← state cursor
  match held.target with
  | .detached => return none
  | .undefined => throw (.misuse (.propertyOfAbsent "undefined" "length"))
  | .list list =>
      if (← Sequence.state list).length ≤ held.index then return none
      else
        change cursor ({ · with index := held.index + 1 })
        return some (← elementAt list held.index)

/-- The element before the cursor. The cursor moves before it, also if the list no longer has it. -/
def previous (cursor : Handle Cursor) : Action Outside (Option Value) := do
  let held ← state cursor
  match held.target, held.index with
  | .list list, index + 1 =>
      change cursor ({ · with index })
      return some (← elementAt list index)
  | _, _ => return none

def copy (cursor : Handle Cursor) : Action Outside (Handle Cursor) := do
  add (← state cursor)

def detach (cursor : Handle Cursor) : Action Outside Unit :=
  change cursor ({ · with target := .detached })

end Cursor

namespace Traversal

def state (traversal : Handle Traversal) : Action Outside Traversal := do
  return (← containers).traversals.get traversal

def change (traversal : Handle Traversal) (step : Traversal → Traversal) : Action Outside Unit :=
  changeContainers fun held =>
    { held with traversals := held.traversals.modify traversal step }

def start (source : TraversalSource) : Action Outside (Handle Traversal) :=
  modifyGet fun state =>
    let (traversals, handle) := state.containers.traversals.add { source }
    (handle, { state with containers := { state.containers with traversals } })

def finish (traversal : Handle Traversal) : Action Outside Unit :=
  change traversal ({ · with phase := .finished })

def itemCount : TraversalSource → Action Outside Nat
  | .list list => return (← Sequence.state list).length
  | .set set => return (← OrderedSet.state set).items.size

def item : TraversalSource → Nat → Action Outside Value
  | .list list, position => return (← Sequence.state list).storage.read position
  | .set set, position => return (← OrderedSet.state set).item position

/--
The first step checks that a traversed list is not destroyed; a failed check ends the traversal.
-/
def requireSource (traversal : Handle Traversal) : Action Outside Unit := do
  let held ← state traversal
  match held.phase, held.source with
  | .fresh, .list list =>
      if (← Sequence.state list).destroyed then
        finish traversal
        throw (.list (.destroyed .traverse))
  | _, _ => return ()

def next (traversal : Handle Traversal) : Action Outside (Option Value) := do
  requireSource traversal
  let held ← state traversal
  if held.phase = .finished then return none
  else if held.position < (← itemCount held.source) then
    change traversal ({ · with position := held.position + 1, phase := .running })
    return some (← item held.source held.position)
  else
    finish traversal
    return none

def itemsLeft (traversal : Handle Traversal) : Action Outside Nat := do
  let held ← state traversal
  return (← itemCount held.source) - held.position

def visitItem {α : Type} (traversal : Handle Traversal) (visit : Value → Action Outside α)
    (item : Value) : Action Outside α :=
  tryCatch (visit item) fun failure => do
    finish traversal
    throw failure

def visitItems {α : Type} (traversal : Handle Traversal) (visit : Value → Action Outside α)
    (results : Array α) (growths remaining : Nat) : Action Outside (Array α) :=
  match growths, remaining with
  | growths, remaining + 1 => do
      match ← next traversal with
      | none => return results
      | some item =>
          let result ← visitItem traversal visit item
          visitItems traversal visit (results.push result) growths remaining
  | growths + 1, 0 => do
      visitItems traversal visit results growths ((← itemsLeft traversal) + 1)
  | 0, 0 => throw .endless
termination_by (growths, remaining)

def visitAll {α : Type} (callbacks : Callbacks Outside) (traversal : Handle Traversal)
    (visit : Value → Action Outside α) : Action Outside (Array α) := do
  visitItems traversal visit #[] callbacks.growths ((← itemsLeft traversal) + 1)

end Traversal

end Collections
