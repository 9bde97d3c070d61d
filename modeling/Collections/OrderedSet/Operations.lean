import Collections.Callbacks
import Collections.StableSort

set_option autoImplicit false

namespace Collections.OrderedSet

variable {Outside : Type}

def state (set : Handle OrderedSet) : Action Outside OrderedSet := do
  return (← containers).sets.get set

def change (set : Handle OrderedSet) (step : OrderedSet → OrderedSet) : Action Outside Unit :=
  changeContainers fun held =>
    { held with sets := held.sets.modify set step }

def add (set : OrderedSet) : Action Outside (Handle OrderedSet) :=
  modifyGet fun state =>
    let (sets, handle) := state.containers.sets.add set
    (handle, { state with containers := { state.containers with sets } })

def empty (comparator : Option ComparatorId) (destructor : Option String) :
    Action Outside (Handle OrderedSet) :=
  add { comparator, destructor }

def compareItem (callbacks : Callbacks Outside) (set : Handle OrderedSet) (position : Nat)
    (value : Value) : Action Outside Reply := do
  let held ← state set
  callbacks.reply held.comparator (held.item position) value

def search (callbacks : Callbacks Outside) (set : Handle OrderedSet) (value : Value)
    (window : Window) : Action Outside Nat :=
  if window.low < window.high then
    if window.Narrows then do
      if (← compareItem callbacks set window.middle value).isBelow then
        search callbacks set value window.above
      else search callbacks set value window.below
    else throw .endless
  else return window.low
termination_by window.width
decreasing_by
  · exact window.width_above_lt ‹_›
  · exact window.width_below_lt ‹_›

structure Location where
  position : Nat
  found : Bool

def locate (callbacks : Callbacks Outside) (set : Handle OrderedSet) (value : Value) :
    Action Outside Location := do
  let position ← search callbacks set value ⟨0, (← state set).items.size⟩
  if position < (← state set).items.size then
    return ⟨position, (← compareItem callbacks set position value).isEqual⟩
  else return ⟨position, false⟩

def insert (callbacks : Callbacks Outside) (set : Handle OrderedSet) (value : Value) :
    Action Outside Bool := do
  let location ← locate callbacks set value
  if location.found then return false
  else
    change set (·.insertAt location.position value)
    return true

def find (callbacks : Callbacks Outside) (set : Handle OrderedSet) (value : Value) :
    Action Outside Value := do
  let location ← locate callbacks set value
  if location.found then return (← state set).item location.position
  else return .undefined

def contains (callbacks : Callbacks Outside) (set : Handle OrderedSet) (value : Value) :
    Action Outside Bool := do
  return (← locate callbacks set value).found

def erase (callbacks : Callbacks Outside) (set : Handle OrderedSet) (value : Value) :
    Action Outside Bool := do
  let location ← locate callbacks set value
  if location.found then
    change set (·.eraseAt location.position)
    return true
  else return false

def setDestructor (set : Handle OrderedSet) (destructor : Option String) : Action Outside Unit :=
  change set ({ · with destructor })

def keepDistinct (callbacks : Callbacks Outside) (comparator : Option ComparatorId)
    (kept : Array Value) : List Value → Action Outside (Array Value)
  | [] => return kept
  | value :: rest =>
      match kept.back? with
      | none => keepDistinct callbacks comparator (kept.push value) rest
      | some last => do
          if (← callbacks.reply comparator last value).isEqual then
            keepDistinct callbacks comparator kept rest
          else keepDistinct callbacks comparator (kept.push value) rest

def ofValues (callbacks : Callbacks Outside) (values : List Value)
    (comparator : Option ComparatorId) (destructor : Option String) :
    Action Outside (Handle OrderedSet) := do
  let sorted ← StableSort.sort (callbacks.below comparator) values
  let items ← keepDistinct callbacks comparator #[] sorted
  add { items, comparator, destructor }

def destroy (callbacks : Callbacks Outside) (set : Handle OrderedSet) : Action Outside Unit := do
  match (← state set).destructor with
  | some destructor =>
      callbacks.visitAll (return (← state set).items.size) fun position => do
        let item := (← state set).item position
        if !item.isNull then callbacks.destruct destructor item
  | none => pure ()
  change set cleared

end Collections.OrderedSet
