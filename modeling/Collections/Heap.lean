import Collections.Failure
import Collections.Properties

set_option autoImplicit false

namespace Collections

structure Record where
  own : Properties Value := .empty
  parent : Parent := .shared

-- The key that links a parent instead of holding a value.
def Record.parentKey : String := "__proto__"

inductive ErrorFamily where
  | list
  | general
  deriving DecidableEq

inductive ErrorKind where
  | plain
  -- An error with metadata, which are a record with an identity of its own.
  | coded (family : ErrorFamily) (metadata : Nat)
  deriving DecidableEq

structure ErrorObject where
  kind : ErrorKind
  message : Option String
  stack : Value := .undefined

inductive Entity where
  | symbol (description : Option String)
  | function (source : String)
  | record (record : Record)
  | array (items : List Value)
  | error (error : ErrorObject)

instance : Inhabited Entity := ⟨.record {}⟩

structure Heap where
  entities : Array Entity := #[]

abbrev HeapAction (α : Type) := EStateM Failure Heap α

namespace Heap

def entity (heap : Heap) (identity : Nat) : Entity := heap.entities.getD identity default

def entity? (heap : Heap) : Value → Option Entity
  | .symbol identity | .object identity => some (heap.entity identity)
  | _ => none

def add (entity : Entity) : HeapAction Nat :=
  modifyGet fun heap => (heap.entities.size, ⟨heap.entities.push entity⟩)

def describe (identity : Nat) (entity : Entity) : HeapAction Unit :=
  modify fun heap => ⟨heap.entities.setIfInBounds identity entity⟩

def ask {α : Type} (question : Heap → Except Failure α) : HeapAction α := do
  match question (← get) with
  | .ok result => return result
  | .error failure => throw failure

def parent? (heap : Heap) (identity : Nat) : Option Nat :=
  match heap.entity identity with
  | .record ⟨_, .object (.object parent)⟩ => some parent
  | _ => none

-- The identities above an object, nearest first; at most `depth` of them.
def ancestorsWithin (heap : Heap) : Nat → Nat → List Nat
  | 0, _ => []
  | depth + 1, identity =>
      match heap.parent? identity with
      | some parent => parent :: heap.ancestorsWithin depth parent
      | none => []

-- Without cycles there are no more parents above an object than there are entities.
def ancestors (heap : Heap) (identity : Nat) : List Nat :=
  heap.ancestorsWithin heap.entities.size identity

def errorKind? (heap : Heap) (value : Value) : Option ErrorKind :=
  match value with
  | .object identity =>
      (identity :: heap.ancestors identity).findSome? fun identity =>
        match heap.entity identity with
        | .error error => some error.kind
        | _ => none
  | _ => none

def ownEntries (heap : Heap) (value : Value) : List (String × Value) :=
  match heap.entity? value with
  | some (.record record) => record.own.entries
  | some (.array items) => items.zipIdx.map fun (item, index) => (toString index, item)
  | some (.error ⟨.coded _ metadata, _, _⟩) => [("type", .object metadata)]
  | _ => []

end Heap

end Collections
