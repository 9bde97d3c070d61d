import Collections.Cursor
import Collections.Ordinals

set_option autoImplicit false

namespace Collections

structure Containers where
  lists : Table Sequence := {}
  sets : Table OrderedSet := {}
  cursors : Table Cursor := {}
  traversals : Table Traversal := {}

structure State (Outside : Type) where
  containers : Containers := {}
  ordinals : Ordinals := {}
  outside : Outside

abbrev Action (Outside α : Type) := EStateM Failure (State Outside) α

variable {Outside : Type}

def resultOf {α : Type} : Except Failure α → Action Outside α
  | .ok result => return result
  | .error failure => throw failure

def containers : Action Outside Containers := do return (← get).containers

def changeContainers (change : Containers → Containers) : Action Outside Unit :=
  modify fun state => { state with containers := change state.containers }

def naturalOrder (left right : Value) : Action Outside Int :=
  modifyGet fun state =>
    let (sign, ordinals) := compareNatural state.ordinals left right
    (sign, { state with ordinals := ordinals })

end Collections
