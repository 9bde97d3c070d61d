import Collections.Callbacks
import Collections.OrderedSet.Operations

set_option autoImplicit false

namespace Collections.Sequence

variable {Outside : Type}

def state (list : Handle Sequence) : Action Outside Sequence := do
  return (← containers).lists.get list

def change (list : Handle Sequence) (step : Sequence → Sequence) : Action Outside Unit :=
  changeContainers fun held =>
    { held with lists := held.lists.modify list step }

def readSlot (list : Handle Sequence) (slot : Nat) : Action Outside Value := do
  return (← state list).storage.read slot

def add (list : Sequence) : Action Outside (Handle Sequence) :=
  modifyGet fun state =>
    let (lists, handle) := state.containers.lists.add list
    (handle, { state with containers := { state.containers with lists } })

def requireLive (list : Handle Sequence) (operation : ListOperation) : Action Outside Unit := do
  if (← state list).destroyed then throw (.list (.destroyed operation))

def requireElement (list : Handle Sequence) (operation : ListOperation) : Action Outside Unit := do
  requireLive list operation
  if (← state list).length = 0 then throw (.list (.empty operation))

def requireSlot (list : Handle Sequence) (index : Value) : Action Outside Nat := do
  let held ← state list
  match held.slot? index with
  | some slot => return slot
  | none => throw (.list (.indexOutOfRange index held.reportedLength))

-- A list that was made without a logger tells nobody: that of the environment, its default, is left out.
def notify (callbacks : Callbacks Outside) (list : Handle Sequence) (notice : Notice) :
    Action Outside Unit := do
  match (← state list).logger with
  | some logger =>
      modify fun state => { state with outside := callbacks.notify logger notice state.outside }
  | none => return ()

def empty (options : ListOptions) : Action Outside (Handle Sequence) := add (create options)

def ofNulls (length : Number) (options : ListOptions) : Action Outside (Handle Sequence) :=
  match length.toInt? with
  | none => throw (.list (.invalidLength (.number length)))
  | some (.negSucc _) => throw (.list (.negativeLength length))
  | some (.ofNat count) =>
      if count < 1 <<< 32 then
        add { create options with
          storage := .filled count .null
          length := count
          negativeZero := length.isNegativeZero }
      else throw (.excess .length)

def withLength (length : Value) (options : ListOptions) : Action Outside (Handle Sequence) :=
  match length with
  | .number length => ofNulls length options
  | _ => throw (.list (.invalidLength length))

def get (list : Handle Sequence) (index : Value) : Action Outside Value := do
  requireLive list .get
  readSlot list (← requireSlot list index)

def set (list : Handle Sequence) (index : Value) (value : Value) : Action Outside Unit := do
  requireLive list .set
  let slot ← requireSlot list index
  change list (·.write slot value)

def append (callbacks : Callbacks Outside) (list : Handle Sequence) (value : Value) :
    Action Outside Unit := do
  requireLive list .append
  let held ← state list
  if held.capacity ≤ held.length then
    change list grown
    notify callbacks list (.storageGrown held.capacity (grownCapacity held.capacity))
  change list (·.push value)

def appendAll (callbacks : Callbacks Outside) (list source : Handle Sequence) :
    Action Outside Unit := do
  requireLive list .appendAll
  if source = list then throw (.list .selfAppend)
  (← state source).elements.forM (append callbacks list)

def join (callbacks : Callbacks Outside) (lists : List (Option (Handle Sequence)))
    (options : ListOptions) : Action Outside (Handle Sequence) := do
  let joined ← empty options
  (lists.filterMap id).forM (appendAll callbacks joined)
  return joined

def setDestructor (list : Handle Sequence) (destructor : Option String) : Action Outside Unit := do
  requireLive list .setDestructor
  change list ({ · with destructor })

def takeOut (list : Handle Sequence) (slot : Nat) : Action Outside Value := do
  let value ← readSlot list slot
  change list (·.shiftOut slot)
  return value

def remove (list : Handle Sequence) (index : Value) : Action Outside Value := do
  requireLive list .remove
  takeOut list (← requireSlot list index)

def removeFirst (list : Handle Sequence) : Action Outside Value :=
  remove list (.number (.zero false))

def pop (list : Handle Sequence) : Action Outside Value := do
  requireElement list .pop
  takeOut list ((← state list).length - 1)

def peek (list : Handle Sequence) : Action Outside Value := do
  requireElement list .peek
  readSlot list ((← state list).length - 1)

def indexOf (list : Handle Sequence) (value : Value) : Action Outside (Option Nat) := do
  requireLive list .indexOf
  return (← state list).find? value

def contains (list : Handle Sequence) (value : Value) : Action Outside Bool := do
  return (← indexOf list value).isSome

def removeItem (list : Handle Sequence) (value : Value) : Action Outside Bool := do
  match ← indexOf list value with
  | some slot =>
      let _ ← takeOut list slot
      return true
  | none => return false

def copy (callbacks : Callbacks Outside) (list : Handle Sequence) (destructor : Option String) :
    Action Outside (Handle Sequence) := do
  requireLive list .copy
  let copied ← empty { (← state list).derivedOptions with destructor }
  appendAll callbacks copied list
  return copied

def reverse (list : Handle Sequence) : Action Outside Unit := do
  requireLive list .reverse
  change list turn

def look (callbacks : Callbacks Outside) (storage : Storage) (name : String) :
    Action Outside Value :=
  match storage.keptAside? (.named name) with
  | some kept => return kept
  | none => callbacks.lookAbove storage.parent name

def copyOut (callbacks : Callbacks Outside) (list : Handle Sequence) :
    Action Outside (List (Option Value)) := do
  let list ← state list
  let copying ← look callbacks list.storage "slice"
  let constructing ← look callbacks list.storage "constructor"
  callbacks.requireCopyable copying constructing
  return list.held

def below (callbacks : Callbacks Outside) (comparator : Option ComparatorId) (left right : Value) :
    Action Outside Bool :=
  match comparator with
  | some comparator => callbacks.below (some comparator) left right
  | none => throw (.misuse (.notCallable "comparator"))

/--
Sorts what the slots hold now, then writes it back over the first slots, whatever happened to the
list meanwhile. For a slot that held nothing there is then nothing left to write.
-/
def sort (callbacks : Callbacks Outside) (list : Handle Sequence)
    (comparator : Option ComparatorId) : Action Outside Unit := do
  requireLive list .sort
  let held ← copyOut callbacks list
  let sorted ← StableSort.sort (below callbacks comparator) (held.filterMap id)
  change list (·.overwrite sorted)
  if sorted.length < held.length then
    throw (.misuse (.propertyOfAbsent "undefined" "value"))

def readAt (callbacks : Callbacks Outside) (list : Handle Sequence) (position : Position) :
    Action Outside Value := do
  match position with
  | .slot slot => readSlot list slot
  | .symbolic _ => return ((← state list).storage.keptAside? position).getD .undefined
  | .named name => look callbacks (← state list).storage name

def writeAt (callbacks : Callbacks Outside) (list : Handle Sequence) (position : Position)
    (value : Value) : Action Outside Unit := do
  match position with
  | .slot slot => change list (·.write slot value)
  | .symbolic _ => change list (·.putAside position value)
  | .named name =>
      let storage := (← state list).storage
      if (storage.keptAside? position).isSome then change list (·.putAside position value)
      else
        match ← callbacks.assignAbove storage.parent name value with
        | .kept => change list (·.putAside position value)
        | .linked parent =>
            let behind ← callbacks.slotsOf parent
            change list (·.link parent behind)
        | .gone => return ()

def swap (callbacks : Callbacks Outside) (list : Handle Sequence) (slot : Nat)
    (position : Position) : Action Outside Unit := do
  let value ← readSlot list slot
  let drawn ← readAt callbacks list position
  change list (·.write slot drawn)
  writeAt callbacks list position value

/-- Puts the capacity into a slot, and takes the value of the slot for the capacity. -/
def swapCapacity (callbacks : Callbacks Outside) (list : Handle Sequence) (slot : Nat) :
    Action Outside Unit := do
  let value ← readSlot list slot
  change list fun held => held.write slot (.number (.ofNat held.capacity))
  let capacity ← callbacks.capacityOf value
  change list (·.resize capacity)

def shuffle (callbacks : Callbacks Outside) (list : Handle Sequence) : Action Outside Unit := do
  requireLive list .shuffle
  callbacks.visitAll (return (← state list).length) fun slot => do
    let held ← state list
    match ← callbacks.draw held.random (.zero false) held.reportedLength with
    | .position position => swap callbacks list slot position
    | .capacity => swapCapacity callbacks list slot

def toOrderedSet (callbacks : Callbacks Outside) (list : Handle Sequence)
    (comparator : Option ComparatorId) : Action Outside (Handle OrderedSet) := do
  requireLive list .toOrderedSet
  let held ← copyOut callbacks list
  OrderedSet.ofValues callbacks (held.map (·.getD .undefined)) comparator none

def filter (callbacks : Callbacks Outside) (list : Handle Sequence)
    (test : Value → Action Outside Bool) : Action Outside (Handle Sequence) := do
  requireLive list .filter
  let filtered ← empty (← state list).derivedOptions
  callbacks.visitAll (return (← state list).length) fun slot => do
    let value ← readSlot list slot
    if ← test value then append callbacks filtered value
  return filtered

-- The null value marks an empty place and is no member of any set.
def isMember (member : Value → Action Outside Bool) (value : Value) : Action Outside Bool :=
  if value.isNull then return false else member value

def filterMembers (callbacks : Callbacks Outside) (list : Handle Sequence)
    (member : Value → Action Outside Bool) : Action Outside (Handle Sequence) :=
  filter callbacks list (isMember member)

def filterOthers (callbacks : Callbacks Outside) (list : Handle Sequence)
    (member : Value → Action Outside Bool) : Action Outside (Handle Sequence) :=
  filter callbacks list fun value => return !(← isMember member value)

/-- Releases one element after the other, reading each from the list only when its turn comes. -/
def destructFrom (callbacks : Callbacks Outside) (list : Handle Sequence) (destructor : String)
    (slot : Nat) : Nat → Action Outside Unit
  | 0 => return ()
  | remaining + 1 => do
      let value ← readSlot list slot
      if !value.isNull then callbacks.destruct destructor value
      destructFrom callbacks list destructor (slot + 1) remaining

def destroy (callbacks : Callbacks Outside) (list : Handle Sequence) : Action Outside Unit := do
  requireLive list .destroy
  let held ← state list
  match held.destructor with
  | some destructor => destructFrom callbacks list destructor 0 held.length
  | none => pure ()
  change list release
  notify callbacks list (.destroyed held.reportedLength held.destructor.isSome)

def convertToOrderedSet (callbacks : Callbacks Outside) (list : Handle Sequence) :
    Action Outside (Handle OrderedSet) := do
  let set ← toOrderedSet callbacks list none
  let held ← state list
  OrderedSet.setDestructor set held.destructor
  change list ({ · with destructor := none })
  notify callbacks list
    (.converted held.reportedLength (← OrderedSet.state set).items.size)
  destroy callbacks list
  return set

def toList (callbacks : Callbacks Outside) (list : Handle Sequence) :
    Action Outside (List Value) := do
  requireLive list .toList
  return (← copyOut callbacks list).map (·.getD .null)

def lengthOf (list : Option (Handle Sequence)) : Action Outside Number := do
  match list with
  | some list => return (← state list).reportedLength
  | none => return .zero false

def destroyIfPresent (callbacks : Callbacks Outside) (list : Option (Handle Sequence)) :
    Action Outside Unit := do
  match list with
  | some list => destroy callbacks list
  | none => return ()

end Collections.Sequence
