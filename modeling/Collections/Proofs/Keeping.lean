import Collections.Proofs.StableSort.Correspondence
import Collections.Proofs.Visiting

set_option autoImplicit false

namespace Collections

variable {Outside α β : Type} {keeps : State Outside → Prop}

def Keeps (keeps : State Outside → Prop) (action : Action Outside α) : Prop :=
  ∀ before, keeps before → Ends action before (fun _ => keeps) (fun _ => keeps)

namespace Keeps

variable {action : Action Outside α} {next : α → Action Outside β}

theorem of_pure (result : α) : Keeps keeps (pure result : Action Outside α) := fun _ start => start

theorem of_throw (failure : Failure) : Keeps keeps (throw failure : Action Outside α) :=
  fun _ start => start

theorem bind (first : Keeps keeps action) (second : ∀ result, Keeps keeps (next result)) :
    Keeps keeps (action >>= next) :=
  fun before start => (first before start).bind fun result middle => second result middle

theorem of_result (outcome : Except Failure α) : Keeps keeps (resultOf outcome) := by
  cases outcome with
  | ok result => exact of_pure result
  | error failure => exact of_throw failure

theorem ite {holds : Prop} [Decidable holds] {other : Action Outside α} (first : Keeps keeps action)
    (second : Keeps keeps other) : Keeps keeps (if holds then action else other) := by
  split
  · exact first
  · exact second

theorem tryCatch {handler : Failure → Action Outside α} (first : Keeps keeps action)
    (second : ∀ failure, Keeps keeps (handler failure)) :
    Keeps keeps (tryCatch action handler) :=
  fun before start => (first before start).tryCatch fun failure middle => second failure middle

theorem forM {act : α → Action Outside Unit} (each : ∀ item, Keeps keeps (act item))
    (items : List α) : Keeps keeps (items.forM act) := by
  induction items with
  | nil => exact of_pure ()
  | cons item rest ih => exact (each item).bind fun _ => ih

def correspondence (keeps : State Outside → Prop) :
    StableSort.Correspondence (Action Outside) Id where
  Holds action _ := Keeps keeps action
  returns := of_pure
  chains := bind

theorem sort {below : α → α → Action Outside Bool}
    (compares : ∀ left right, Keeps keeps (below left right)) (items : List α) :
    Keeps keeps (StableSort.sort below items) := by
  have agree (left right : α) : (correspondence keeps).Holds (below left right) (pure false) :=
    compares left right
  exact (correspondence keeps).holds_sort agree items

theorem visitAll {callbacks : Callbacks Outside} {length : Action Outside Nat}
    {visit : Nat → Action Outside Unit} (measures : Keeps keeps length)
    (visits : ∀ position, Keeps keeps (visit position)) :
    Keeps keeps (callbacks.visitAll length visit) :=
  visitAll_keeps measures visits

end Keeps

end Collections
