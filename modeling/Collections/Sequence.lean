import Collections.Failure
import Collections.Sequence.Storage

set_option autoImplicit false

namespace Collections

structure SourceId where
  index : Nat
  deriving DecidableEq

structure Sequence where
  storage : Storage := {}
  length : Nat := 0
  /-- An empty list created at the length negative zero reports that length until it changes. -/
  negativeZero : Bool := false
  destructor : Option String := none
  destroyed : Bool := false
  logger : Option String := none
  random : Option SourceId := none

-- A handle that reaches no list behaves as a destroyed one.
instance : Inhabited Sequence := ⟨{ destroyed := true }⟩

structure ListOptions where
  destructor : Option String := none
  logger : Option String := none
  random : Option SourceId := none

namespace Sequence

def loggerOrigin : String := "list"

def create (options : ListOptions) : Sequence where
  destructor := options.destructor
  logger := options.logger
  random := options.random

def elements (list : Sequence) : List Value := list.storage.valuesFrom 0 list.length

def held (list : Sequence) : List (Option Value) := list.storage.held list.length

def capacity (list : Sequence) : Nat := list.storage.capacity

def reportedLength (list : Sequence) : Number :=
  if list.negativeZero then .zero true else .ofNat list.length

def derivedOptions (list : Sequence) : ListOptions where
  logger := list.logger
  random := list.random

def slot? (list : Sequence) (index : Value) : Option Nat :=
  match index with
  | .number index => index.toNat?.filter (· < list.length)
  | _ => none

def grownCapacity (capacity : Nat) : Nat := 2 * capacity + 5

def grown (list : Sequence) : Sequence :=
  { list with storage := list.storage.reallocate list.length (grownCapacity list.capacity) }

def push (list : Sequence) (value : Value) : Sequence :=
  { list with
    storage := list.storage.write list.length value
    length := list.length + 1
    negativeZero := false }

def write (list : Sequence) (slot : Nat) (value : Value) : Sequence :=
  { list with storage := list.storage.write slot value }

def shiftOut (list : Sequence) (slot : Nat) : Sequence :=
  { list with
    storage := list.storage.shiftOut slot list.length
    length := list.length - 1 }

def overwrite (list : Sequence) (values : List Value) : Sequence :=
  { list with storage := list.storage.writeFrom 0 values }

def turn (list : Sequence) : Sequence := { list with storage := list.storage.turn list.length }

def resize (list : Sequence) (capacity : Nat) : Sequence :=
  { list with storage := list.storage.resize capacity }

def putAside (list : Sequence) (position : Position) (value : Value) : Sequence :=
  { list with storage := list.storage.putAside position value }

def link (list : Sequence) (parent : Parent) (behind : List (Nat × Value)) : Sequence :=
  { list with storage := { list.storage with parent, behind } }

def release (list : Sequence) : Sequence :=
  { list with
    storage := {}
    length := 0
    negativeZero := false
    destructor := none
    destroyed := true }

def find? (list : Sequence) (value : Value) : Option Nat :=
  list.elements.findIdx? fun element => element.identical value

end Sequence

end Collections
