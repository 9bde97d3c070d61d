import Collections.Sequence
import Collections.OrderedSet
import Collections.Table

set_option autoImplicit false

namespace Collections

inductive CursorTarget where
  | list (list : Handle Sequence)
  -- There is no list, or the cursor has been taken off it.
  | detached
  -- The list is undefined, which shows as soon as its length is asked for.
  | undefined
  deriving DecidableEq

structure Cursor where
  target : CursorTarget := .detached
  index : Nat := 0

instance : Inhabited Cursor := ⟨{}⟩

inductive TraversalSource where
  | list (list : Handle Sequence)
  | set (set : Handle OrderedSet)

inductive TraversalPhase where
  -- Nothing has been asked for yet, so nothing has been checked.
  | fresh
  | running
  | finished
  deriving DecidableEq

structure Traversal where
  source : TraversalSource
  position : Nat := 0
  phase : TraversalPhase := .fresh

instance : Inhabited Traversal := ⟨{ source := .set ⟨0⟩, phase := .finished }⟩

end Collections
