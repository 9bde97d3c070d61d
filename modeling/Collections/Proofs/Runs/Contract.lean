import Collections.Proofs.Keeping
import Collections.Proofs.Runs.Operation
import Collections.Proofs.Sequence.Showing

set_option autoImplicit false

namespace Collections

variable {Outside : Type}

namespace Keeps

variable {keeps : State Outside → Prop}

theorem list_state (list : Handle Sequence) :
    Keeps keeps (Sequence.state list : Action Outside Sequence) :=
  fun _ start => start

theorem set_state (set : Handle OrderedSet) :
    Keeps keeps (OrderedSet.state set : Action Outside OrderedSet) :=
  fun _ start => start

theorem readSlot (list : Handle Sequence) (slot : Nat) :
    Keeps keeps (Sequence.readSlot list slot : Action Outside Value) :=
  fun _ start => start

theorem requireLive (list : Handle Sequence) (operation : ListOperation) :
    Keeps keeps (Sequence.requireLive list operation : Action Outside Unit) :=
  (list_state list).bind fun _ => .ite (.of_throw _) (.of_pure _)

theorem requireElement (list : Handle Sequence) (operation : ListOperation) :
    Keeps keeps (Sequence.requireElement list operation : Action Outside Unit) :=
  (requireLive list operation).bind fun _ =>
    (list_state list).bind fun _ => .ite (.of_throw _) (.of_pure _)

theorem requireSlot (list : Handle Sequence) (index : Value) :
    Keeps keeps (Sequence.requireSlot list index : Action Outside Nat) := by
  refine (list_state list).bind fun held => ?_
  split
  · exact .of_pure _
  · exact .of_throw _

theorem indexOf (list : Handle Sequence) (value : Value) :
    Keeps keeps (Sequence.indexOf list value : Action Outside (Option Nat)) :=
  (requireLive list .indexOf).bind fun _ => (list_state list).bind fun _ => .of_pure _

theorem elementAt (list : Handle Sequence) (index : Nat) :
    Keeps keeps (Cursor.elementAt list index : Action Outside Value) :=
  (requireLive list .get).bind fun _ => (list_state list).bind fun _ =>
    .ite (.of_pure _) (.of_throw _)

theorem cursor_state (cursor : Handle Cursor) :
    Keeps keeps (Cursor.state cursor : Action Outside Cursor) :=
  fun _ start => start

theorem traversal_state (traversal : Handle Traversal) :
    Keeps keeps (Traversal.state traversal : Action Outside Traversal) :=
  fun _ start => start

theorem itemCount (source : TraversalSource) :
    Keeps keeps (Traversal.itemCount source : Action Outside Nat) := by
  cases source <;> exact fun _ start => start

theorem item (source : TraversalSource) (position : Nat) :
    Keeps keeps (Traversal.item source position : Action Outside Value) := by
  cases source <;> exact fun _ start => start

theorem itemsLeft (traversal : Handle Traversal) :
    Keeps keeps (Traversal.itemsLeft traversal : Action Outside Nat) :=
  (traversal_state traversal).bind fun held => (itemCount held.source).bind fun _ => .of_pure _

theorem isMember {member : Value → Action Outside Bool} (members : ∀ value, Keeps keeps (member value))
    (value : Value) : Keeps keeps (Sequence.isMember member value) :=
  .ite (.of_pure false) (members value)

theorem lengthOf (list : Option (Handle Sequence)) :
    Keeps keeps (Sequence.lengthOf list : Action Outside Number) := by
  cases list with
  | none => exact .of_pure _
  | some list => exact (list_state list).bind fun _ => .of_pure _

theorem appendAll {callbacks : Callbacks Outside} {list : Handle Sequence}
    (appends : ∀ value, Keeps keeps (Sequence.append callbacks list value)) (source : Handle Sequence) :
    Keeps keeps (Sequence.appendAll callbacks list source) := by
  refine (requireLive list .appendAll).bind fun _ => .ite (.of_throw _) ?_
  exact (list_state source).bind fun held => .forM appends held.elements

end Keeps

namespace Sequence

-- What is no list counts as destroyed.
theorem there_of_live {lists : Table Sequence} {list : Handle Sequence}
    (live : (lists.get list).destroyed = false) : lists.cell? list = some (lists.get list) := by
  cases there : lists.cell? list with
  | some held => rw [Table.get_of_cell? there]
  | none =>
    rw [Table.get_of_cell?_eq_none there] at live
    cases live

theorem requireLive_bind {α : Type} {list : Handle Sequence} {operation : ListOperation}
    {next : Unit → Action Outside α} {before : State Outside} {wanted : α → State Outside → Prop}
    {failed : Failure → State Outside → Prop} (dead : failed (.list (.destroyed operation)) before)
    (live : ∀ held, before.containers.lists.cell? list = some held → held.destroyed = false →
      Ends (next ()) before wanted failed) :
    Ends (requireLive list operation >>= next) before wanted failed := by
  have checked : (requireLive list operation : Action Outside Unit) before =
      (if (before.containers.lists.get list).destroyed then
        throw (.list (.destroyed operation)) else pure () : Action Outside Unit) before := rfl
  cases lives : (before.containers.lists.get list).destroyed with
  | true =>
    rw [if_pos lives] at checked
    unfold Ends
    rwa [bind_error checked]
  | false =>
    have there := there_of_live lives
    exact Ends.bind_eq (requireLive_eq there lives operation) (live _ there lives)

theorem requireLive_ends {α : Type} {list : Handle Sequence} {operation : ListOperation}
    {next : Unit → Action Outside α} {before : State Outside} {wanted : α → State Outside → Prop}
    {failed : Failure → State Outside → Prop} (dead : failed (.list (.destroyed operation)) before)
    (live : ∀ held, before.containers.lists.cell? list = some held → held.destroyed = false →
      Ends (requireLive list operation >>= next) before wanted failed) :
    Ends (requireLive list operation >>= next) before wanted failed := by
  refine requireLive_bind dead fun held there lives => ?_
  have ends := live held there lives
  unfold Ends at ends ⊢
  rwa [bind_ok (requireLive_eq there lives operation)] at ends

end Sequence

structure Contract (surroundings : Surroundings Outside) (keeps : State Outside → Prop) : Prop where
  orders : ∀ left right, Keeps keeps (naturalOrder left right)
  compares : ∀ comparator left right, Keeps keeps (surroundings.compare comparator left right)
  tests : ∀ predicate value, Keeps keeps (surroundings.test predicate value)
  looks : ∀ parent name, Keeps keeps (surroundings.lookAbove parent name)
  requires : ∀ copying constructing, Keeps keeps (surroundings.requireCopyable copying constructing)

namespace Contract

variable {surroundings : Surroundings Outside} {keeps : State Outside → Prop}
  (contract : Contract surroundings keeps)

include contract

theorem look (storage : Storage) (name : String) :
    Keeps keeps (Sequence.look surroundings.toCallbacks storage name) := by
  unfold Sequence.look
  split
  · exact .of_pure _
  · exact contract.looks storage.parent name

theorem copyOut (list : Handle Sequence) :
    Keeps keeps (Sequence.copyOut surroundings.toCallbacks list) :=
  (Keeps.list_state list).bind fun held => (contract.look held.storage "slice").bind fun _ =>
    (contract.look held.storage "constructor").bind fun _ =>
      (contract.requires _ _).bind fun _ => .of_pure held.held

theorem toList (list : Handle Sequence) :
    Keeps keeps (Sequence.toList surroundings.toCallbacks list) :=
  (Keeps.requireLive list .toList).bind fun _ => (contract.copyOut list).bind fun _ => .of_pure _

theorem reply (comparator : Option ComparatorId) (left right : Value) :
    Keeps keeps (surroundings.reply comparator left right) := by
  cases comparator with
  | none => exact (contract.orders left right).bind fun sign => .of_pure (Reply.ofSign sign)
  | some comparator => exact contract.compares comparator left right

theorem below (comparator : Option ComparatorId) (left right : Value) :
    Keeps keeps (surroundings.below comparator left right) :=
  (contract.reply comparator left right).bind fun _ => .of_result _

theorem readAt (list : Handle Sequence) (position : Position) :
    Keeps keeps (Sequence.readAt surroundings.toCallbacks list position) := by
  cases position with
  | slot slot => exact .readSlot list slot
  | named name => exact (Keeps.list_state list).bind fun held => contract.look held.storage name
  | symbolic => exact (Keeps.list_state list).bind fun _ => .of_pure _

theorem compareItem (set : Handle OrderedSet) (position : Nat) (value : Value) :
    Keeps keeps (OrderedSet.compareItem surroundings.toCallbacks set position value) :=
  (Keeps.set_state set).bind fun held => contract.reply held.comparator _ value

theorem search (set : Handle OrderedSet) (value : Value) (window : Window) :
    Keeps keeps (OrderedSet.search surroundings.toCallbacks set value window) := by
  induction width : window.width using Nat.strongRecOn generalizing window with
  | ind width ih =>
    rw [OrderedSet.search.eq_def]
    split
    next =>
      split
      next narrows =>
        refine (contract.compareItem set _ value).bind fun reply => .ite ?_ ?_
        · exact ih _ (width ▸ window.width_above_lt narrows) window.above rfl
        · exact ih _ (width ▸ window.width_below_lt narrows) window.below rfl
      next => exact .of_throw _
    next => exact .of_pure _

theorem locate (set : Handle OrderedSet) (value : Value) :
    Keeps keeps (OrderedSet.locate surroundings.toCallbacks set value) :=
  (Keeps.set_state set).bind fun _ => (contract.search set value _).bind fun position =>
    (Keeps.set_state set).bind fun _ =>
      .ite ((contract.compareItem set position value).bind fun _ => .of_pure _) (.of_pure _)

theorem find (set : Handle OrderedSet) (value : Value) :
    Keeps keeps (OrderedSet.find surroundings.toCallbacks set value) :=
  (contract.locate set value).bind fun _ =>
    .ite ((Keeps.set_state set).bind fun _ => .of_pure _) (.of_pure _)

theorem contains (set : Handle OrderedSet) (value : Value) :
    Keeps keeps (OrderedSet.contains surroundings.toCallbacks set value) :=
  (contract.locate set value).bind fun _ => .of_pure _

theorem keepDistinct (comparator : Option ComparatorId) (values : List Value) (kept : Array Value) :
    Keeps keeps (OrderedSet.keepDistinct surroundings.toCallbacks comparator kept values) := by
  induction values generalizing kept with
  | nil => exact .of_pure kept
  | cons value rest ih =>
    rw [OrderedSet.keepDistinct.eq_def]
    dsimp only
    split
    · exact ih _
    · exact (contract.reply comparator _ value).bind fun _ => .ite (ih kept) (ih _)

theorem isAmong (members : Members) (value : Value) :
    Keeps keeps (isAmong surroundings members value) := by
  cases members with
  | set set => exact contract.contains set value
  | among values => exact .of_pure _

omit contract in
theorem destructFrom
    (destructs : ∀ destructor value, Keeps keeps (surroundings.destruct destructor value))
    (list : Handle Sequence) (destructor : String) (slot remaining : Nat) :
    Keeps keeps (Sequence.destructFrom surroundings.toCallbacks list destructor slot remaining) := by
  induction remaining generalizing slot with
  | zero => exact .of_pure ()
  | succ remaining ih =>
    refine (Keeps.readSlot list slot).bind fun value => ?_
    split
    · exact (destructs destructor value).bind fun _ => ih (slot + 1)
    · exact ih (slot + 1)

end Contract

end Collections
