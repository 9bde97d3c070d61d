import Collections.Heap.Primitive

set_option autoImplicit false

namespace Collections

inductive Binding where
  | data
  | readOnly
  | restricted
  | link
  | stack (error : Nat)
  deriving DecidableEq

namespace Heap

def sharedBinding? (family : Family) (key : String) : Option Binding :=
  (shared? family key).map fun found =>
    match found with
    | .intrinsic intrinsic =>
        if intrinsic.isRoot then .link
        else if intrinsic.isRestricted then .restricted
        else .data
    | _ => .data

def functionKeys : List String := ["length", "name"]

def ownBinding? (heap : Heap) (key : String) (object : Value) : Option Binding :=
  match object with
  | .object identity =>
      match heap.entity identity with
      | .function _ => if key ∈ functionKeys then some .readOnly else none
      | .error _ => if key = "stack" then some (.stack identity) else none
      | .record record => (record.own.get? key).map fun _ => .data
      | _ => none
  | .intrinsic intrinsic =>
      if heap.isFunction (.intrinsic intrinsic) && key ∈ functionKeys then some .readOnly else none
  | _ => none

def bindingWithin (heap : Heap) (key : String) : Nat → Family → Parent → Option Binding
  | _, family, .shared => sharedBinding? family key
  | _, _, .absent => none
  | 0, _, .object _ => none
  | depth + 1, _, .object object =>
      match heap.ownBinding? key object, heap.entity? object with
      | some binding, _ => some binding
      | none, some (.record record) => heap.bindingWithin key depth .record record.parent
      | none, _ => (heap.familyOf object).bind (sharedBinding? · key)

def binding? (heap : Heap) (family : Family) (parent : Parent) (key : String) : Option Binding :=
  heap.bindingWithin key (heap.entities.size + 1) family parent

def setStack (error : Nat) (stack : Value) : HeapAction Unit := do
  match (← get).entity error with
  | .error held => describe error (.error { held with stack })
  | _ => return ()

-- The parent that a value stands for. Only an object, or null for none, is one.
def linked : Value → Assigned
  | .object identity => .linked (.object (.object identity))
  | .intrinsic intrinsic => .linked (.object (.intrinsic intrinsic))
  | .null => .linked .absent
  | _ => .gone

def assignAbove (family : Family) (shown : String) (parent : Parent) (key : String)
    (value : Value) : HeapAction Assigned := do
  match (← get).binding? family parent key with
  | none | some .data => return .kept
  | some .readOnly => throw (.misuse (.readOnly key shown))
  | some .restricted => throw (.misuse .restrictedMember)
  | some .link => return linked value
  | some (.stack error) =>
      setStack error value
      return .gone

-- Puts a parent above a record. No object may come to be above itself.
def link (identity : Nat) (record : Record) (parent : Parent) : HeapAction Unit := do
  match parent with
  | .object (.object above) =>
      if above = identity ∨ identity ∈ (← get).ancestors above then
        throw (.misuse .cyclicParent)
      describe identity (.record { record with parent })
  | parent => describe identity (.record { record with parent })

def hold (identity : Nat) (record : Record) (key : String) (value : Value) : HeapAction Unit :=
  describe identity (.record { record with own := record.own.assign key value })

def assign (identity : Nat) (key : String) (value : Value) : HeapAction Unit := do
  match (← get).entity identity with
  | .record record =>
      if (record.own.get? key).isSome then hold identity record key value
      else
        match ← assignAbove .record Value.objectText record.parent key value with
        | .kept => hold identity record key value
        | .linked parent => link identity record parent
        | .gone => return ()
  | _ => return ()

def arrayText : String := "[object Array]"

/--
What copies an array under the name `slice`: the array fails if that is not the shared member, or if
what should construct the copy cannot.
-/
def requireCopyable (copying constructing : Value) (heap : Heap) : Except Failure Unit :=
  if copying = .intrinsic (.member .array "slice") then
    match constructing with
    | .undefined | .object _ | .intrinsic _ => .ok ()
    | _ => .error (.misuse .notConstructible)
  else if heap.isFunction copying then .error (.misuse (.propertyOfAbsent "undefined" "map"))
  else .error (.misuse (.notCallable "this.storage.slice"))

end Heap

end Collections
