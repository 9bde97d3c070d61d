import Collections.Heap.Primitive

set_option autoImplicit false

namespace Collections

def Value.isTruthy : Value → Bool
  | .undefined | .null => false
  | .bool held => held
  | .number held => held != .nan && !held.isZero
  | .integer held => held != 0
  | .text content => content != ""
  | .symbol _ | .object _ | .intrinsic _ => true

namespace Heap

def newError (heap : Heap) (kind : ErrorKind) (message stack : Value) :
    Except Failure ErrorObject :=
  match message with
  | .undefined => .ok { kind, message := none, stack }
  | message => do return { kind, message := some (← heap.text message), stack }

def codedError (heap : Heap) (family : ErrorFamily) (metadata : Nat) (message stack : Value) :
    Except Failure ErrorObject :=
  let subject := if message.isTruthy then message else heap.property "code" (.object metadata)
  heap.newError (.coded family metadata) subject stack

def callShared {α : Type} (heap : Heap) (subject key : String) (value : Value)
    (shared replaced : Except Failure α) : Except Failure α :=
  match heap.look? key value with
  | some (.intrinsic _) => shared
  | some held =>
      if heap.isFunction held then replaced
      else .error (.misuse (.notCallable (subject ++ "." ++ key)))
  | none => .error (.misuse (.notCallable (subject ++ "." ++ key)))

def metadata (heap : Heap) (subject : String) (value : Value) : Except Failure Value :=
  heap.callShared subject "getMetadata" value (.ok (heap.property "type" value)) (.ok .undefined)

def spreadEntries (heap : Heap) (value : Value) : List (String × Value) :=
  match value with
  | .text content => (unitTexts content).zipIdx.map fun (unit, index) => (toString index, unit)
  | value => heap.ownEntries value

def entries (heap : Heap) (value : Value) : Except Failure (List (String × Value)) :=
  match value with
  | .undefined | .null => .error (.misuse .absentAsObject)
  | value => .ok (heap.spreadEntries value)

def metadataEntries (heap : Heap) (subject : String) (value : Value) :
    Except Failure (List (String × Value)) := do
  heap.entries (← heap.metadata subject value)

def hasCode (heap : Heap) (code value : Value) : Except Failure Bool := do
  match heap.errorKind? value with
  | some (.coded ..) =>
      return (← heap.requireProperty "code" (heap.property "type" value)).identical code
  | _ => return false

def describedError (heap : Heap) (value : Value) : Except Failure (List (String × Value)) := do
  let metadata ← heap.metadata "this" value
  let stack := heap.property "stack" value
  let stack := if stack.isTruthy then stack else .text ""
  return ((Properties.ofEntries (heap.spreadEntries metadata)).assign "stack" stack).entries

def describedEntries (heap : Heap) (subject : String) (value : Value) :
    Except Failure (List (String × Value)) :=
  heap.callShared subject "toObject" value (heap.describedError value)
    (.error (.misuse .absentAsObject))

end Heap

end Collections
