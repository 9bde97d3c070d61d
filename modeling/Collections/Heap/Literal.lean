import Collections.Heap.Assignment
import Collections.Heap.Coded

set_option autoImplicit false

namespace Collections

inductive Literal where
  | value (value : Value)
  | record (entries : List (String × Literal))
  | array (items : List Literal)

instance : Inhabited Literal := ⟨.value .undefined⟩

inductive Description where
  | symbol (description : Option String)
  | function (source : String)
  | record (entries : List (String × Literal))
  | array (items : List Literal)
  | plainError (message stack : Literal)
  | codedError (family : ErrorFamily) (metadata : List (String × Literal)) (message stack : Literal)

namespace Heap

mutual

def make : Literal → HeapAction Value
  | .value value => return value
  | .record entries => do
      let identity ← add (.record {})
      fill identity entries
      return .object identity
  | .array items => do
      let made ← makeItems #[] items
      return .object (← add (.array made.toList))

def fill (identity : Nat) : List (String × Literal) → HeapAction Unit
  | [] => return ()
  | entry :: entries => do
      makeEntry identity entry
      fill identity entries

def makeEntry (identity : Nat) : String × Literal → HeapAction Unit
  | (key, literal) => do assign identity key (← make literal)

def makeItems (made : Array Value) : List Literal → HeapAction (Array Value)
  | [] => return made
  | item :: items => do makeItems (made.push (← make item)) items

end

def makeAll (literals : List Literal) : HeapAction (List Value) :=
  Array.toList <$> makeItems #[] literals

def makeRecord (entries : List (String × Literal)) : HeapAction Value := make (.record entries)

def realize (identity : Nat) (description : Description) : HeapAction Unit := do
  match description with
  | .symbol description => describe identity (.symbol description)
  | .function source => describe identity (.function source)
  | .record entries => fill identity entries
  | .array items => describe identity (.array (← makeAll items))
  | .plainError message stack =>
      let message ← make message
      let stack ← make stack
      describe identity (.error (← ask (·.newError .plain message stack)))
  | .codedError family metadata message stack =>
      let record ← add (.record {})
      fill record metadata
      let message ← make message
      let stack ← make stack
      describe identity (.error (← ask (·.codedError family record message stack)))

def realizeFrom (identity : Nat) : List Description → HeapAction Unit
  | [] => return ()
  | description :: descriptions => do
      realize identity description
      realizeFrom (identity + 1) descriptions

def declare (descriptions : List Description) : HeapAction Unit := do
  set ({ entities := Array.replicate descriptions.length default } : Heap)
  realizeFrom 0 descriptions

end Heap

end Collections
