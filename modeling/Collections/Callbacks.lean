import Collections.Reply
import Collections.State

set_option autoImplicit false

namespace Collections

inductive Notice where
  | storageGrown (before after : Nat)
  | converted (length : Number) (size : Nat)
  | destroyed (length : Number) (destructed : Bool)
  deriving DecidableEq

namespace Notice

def message : Notice → String
  | .storageGrown .. => "List storage grown"
  | .converted .. => "List converted to sorted set"
  | .destroyed .. => "List destroyed"

def context : Notice → List (String × Value)
  | .storageGrown before after =>
      [("from", .number (.ofNat before)), ("to", .number (.ofNat after))]
  | .converted length size =>
      [("length", .number length), ("size", .number (.ofNat size))]
  | .destroyed length destructed =>
      [("length", .number length), ("destructed", .bool destructed)]

end Notice

structure Callbacks (Outside : Type) where
  destruct : String → Value → Action Outside Unit
  compare : ComparatorId → Value → Value → Action Outside Reply
  draw : Option SourceId → Number → Number → Action Outside Draw
  capacityOf : Value → Action Outside Nat
  lookAbove : Parent → String → Action Outside Value
  assignAbove : Parent → String → Value → Action Outside Assigned
  slotsOf : Parent → Action Outside (List (Nat × Value))
  requireCopyable : Value → Value → Action Outside Unit
  -- Loggers are sinks: as the type says, they do not fail, and have nothing done to containers.
  notify : String → Notice → Outside → Outside
  -- How often a walk may find, at what was the end, that its container has grown.
  growths : Nat

namespace Callbacks

variable {Outside : Type}

def reply (callbacks : Callbacks Outside) (comparator : Option ComparatorId)
    (left right : Value) : Action Outside Reply :=
  match comparator with
  | some comparator => callbacks.compare comparator left right
  | none => do return .ofSign (← naturalOrder left right)

def below (callbacks : Callbacks Outside) (comparator : Option ComparatorId)
    (left right : Value) : Action Outside Bool := do
  resultOf (← callbacks.reply comparator left right).sortsBelow

end Callbacks

variable {Outside : Type}

/--
Visits the positions below a length that is read again before each visit, from `position` on. After
`remaining` visits the length has to have grown for the walk to go on, which it may `growths` times.
-/
def visitFrom (length : Action Outside Nat) (visit : Nat → Action Outside Unit)
    (growths remaining position : Nat) : Action Outside Unit :=
  match growths, remaining with
  | growths, remaining + 1 => do
      if position < (← length) then
        visit position
        visitFrom length visit growths remaining (position + 1)
  | growths + 1, 0 => do
      let current ← length
      if position < current then
        visitFrom length visit growths (current - position) position
  | 0, 0 => do
      if position < (← length) then throw .endless
termination_by (growths, remaining)

def Callbacks.visitAll (callbacks : Callbacks Outside) (length : Action Outside Nat)
    (visit : Nat → Action Outside Unit) : Action Outside Unit := do
  visitFrom length visit callbacks.growths (← length) 0

end Collections
