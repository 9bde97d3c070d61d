import Collections.Heap.Literal
import Collections.Proofs.Properties

set_option autoImplicit false

namespace Collections

def Entity.Orderly : Entity → Prop
  | .record held => Properties.Orderly held.own.entries
  | _ => True

namespace Heap

def Orderly (heap : Heap) : Prop := ∀ identity, (heap.entity identity).Orderly

theorem Orderly.lists {heap : Heap} (orderly : heap.Orderly) {value : Value} {record : Record}
    (found : heap.entity? value = some (.record record)) :
    Properties.Orderly record.own.entries := by
  have known (identity : Nat) (same : heap.entity identity = .record record) :
      Properties.Orderly record.own.entries := by
    simpa [same, Entity.Orderly] using orderly identity
  cases value with
  | symbol identity | object identity => exact known identity (Option.some.inj found)
  | _ => cases found

theorem empty_orderly : Orderly {} := by
  intro identity
  simp [entity, default, Entity.Orderly, Properties.empty, Properties.Orderly]

def KeepsOrder {α : Type} (action : HeapAction α) : Prop :=
  ∀ heap, heap.Orderly →
    match action heap with
    | .ok _ after | .error _ after => after.Orderly

namespace KeepsOrder

variable {α β : Type} {action : HeapAction α}

theorem of_pure (result : α) : KeepsOrder (pure result) := fun _ orderly => orderly

theorem of_throw (failure : Failure) : KeepsOrder (throw failure : HeapAction α) :=
  fun _ orderly => orderly

theorem get : KeepsOrder get := fun _ orderly => orderly

theorem bind {next : α → HeapAction β} (first : KeepsOrder action)
    (second : ∀ result, KeepsOrder (next result)) : KeepsOrder (action >>= next) := by
  intro heap orderly
  have kept := first heap orderly
  change match EStateM.bind action next heap with | .ok _ after | .error _ after => after.Orderly
  unfold EStateM.bind
  split at kept
  next result after answered =>
    rw [answered]
    exact second result after kept
  next failure after broke =>
    rw [broke]
    exact kept

theorem of_ask (question : Heap → Except Failure α) : KeepsOrder (ask question) :=
  get.bind fun heap => by
    cases question heap with
    | ok result => exact of_pure result
    | error failure => exact of_throw failure

theorem succeeds {heap after : Heap} {result : α} (keeps : KeepsOrder action)
    (orderly : heap.Orderly) (answered : action heap = .ok result after) : after.Orderly := by
  have kept := keeps heap orderly
  rwa [answered] at kept

end KeepsOrder

section Actions

variable {record : Record}

theorem add_keeps (entity : Entity) (sound : entity.Orderly) : KeepsOrder (add entity) := by
  intro heap orderly identity
  have known := orderly identity
  by_cases fresh : identity = heap.entities.size
  · simp [Heap.entity, fresh, sound]
  · simpa [Heap.entity, Array.getElem?_push, fresh] using known

theorem describe_keeps (identity : Nat) (entity : Entity) (sound : entity.Orderly) :
    KeepsOrder (describe identity entity) := by
  intro heap orderly other
  have known := orderly other
  by_cases same : identity = other
  · subst same
    by_cases inside : identity < heap.entities.size
    · simp [Heap.entity, inside, sound]
    -- Past the end nothing is described.
    · simpa [Heap.entity, inside] using known
  · simpa [Heap.entity, same] using known

theorem hold_keeps (orderly : Properties.Orderly record.own.entries) (identity : Nat) (key : String)
    (value : Value) : KeepsOrder (hold identity record key value) :=
  describe_keeps identity (.record _) (Properties.assignEntry_orderly orderly key value)

theorem link_keeps (orderly : Properties.Orderly record.own.entries) (identity : Nat)
    (parent : Parent) : KeepsOrder (link identity record parent) := by
  have linked (parent : Parent) : KeepsOrder (describe identity (.record { record with parent })) :=
    describe_keeps identity (.record { record with parent }) orderly
  unfold link
  split
  next above =>
    refine .bind .get fun heap => ?_
    split
    -- A link that would close a cycle fails before anything is written.
    next => exact .bind (.of_throw _) fun _ => linked _
    next => exact linked _
  next => exact linked _

theorem setStack_keeps (error : Nat) (stack : Value) : KeepsOrder (setStack error stack) := by
  refine .bind .get fun heap => ?_
  split
  next held _ => exact describe_keeps error (.error { held with stack }) trivial
  next => exact .of_pure ()

theorem assignAbove_keeps (family : Family) (shown : String) (parent : Parent) (key : String)
    (value : Value) : KeepsOrder (assignAbove family shown parent key value) := by
  refine .bind .get fun heap => ?_
  split
  next => exact .of_pure _
  next => exact .of_pure _
  next => exact .of_throw _
  next => exact .of_throw _
  next => exact .of_pure _
  next error _ => exact (setStack_keeps error value).bind fun _ => .of_pure _

-- What an action does with the heap that it finds.
theorem KeepsOrder.of_get {α : Type} {next : Heap → HeapAction α}
    (keeps : ∀ heap, heap.Orderly → KeepsOrder (next heap)) : KeepsOrder (MonadState.get >>= next) :=
  fun heap orderly => keeps heap orderly heap orderly

theorem assign_keeps (identity : Nat) (key : String) (value : Value) :
    KeepsOrder (assign identity key value) := by
  refine .of_get fun heap orderly => ?_
  have known := orderly identity
  split
  next record found =>
    rw [found] at known
    split
    next => exact hold_keeps known identity key value
    next =>
      refine (assignAbove_keeps _ _ _ _ _).bind fun assigned => ?_
      cases assigned with
      | kept => exact hold_keeps known identity key value
      | linked parent => exact link_keeps known identity parent
      | gone => exact .of_pure ()
  next => exact .of_pure ()

end Actions

mutual

theorem make_keeps : (literal : Literal) → KeepsOrder (make literal)
  | .value value => by
    rw [make]
    exact .of_pure value
  | .record entries => by
    rw [make]
    exact (add_keeps (.record {}) List.Pairwise.nil).bind fun identity =>
      (fill_keeps identity entries).bind fun _ => .of_pure _
  | .array items => by
    rw [make]
    exact (makeItems_keeps #[] items).bind fun made =>
      (add_keeps (.array made.toList) trivial).bind fun _ => .of_pure _

theorem fill_keeps (identity : Nat) : (entries : List (String × Literal)) →
    KeepsOrder (fill identity entries)
  | [] => by
    rw [fill]
    exact .of_pure ()
  | entry :: entries => by
    rw [fill]
    exact (makeEntry_keeps identity entry).bind fun _ => fill_keeps identity entries

theorem makeEntry_keeps (identity : Nat) : (entry : String × Literal) →
    KeepsOrder (makeEntry identity entry)
  | (key, literal) => by
    rw [makeEntry]
    exact (make_keeps literal).bind fun value => assign_keeps identity key value

theorem makeItems_keeps (made : Array Value) : (items : List Literal) →
    KeepsOrder (makeItems made items)
  | [] => by
    rw [makeItems]
    exact .of_pure made
  | item :: items => by
    rw [makeItems]
    exact (make_keeps item).bind fun value => makeItems_keeps (made.push value) items

end

theorem realize_keeps (identity : Nat) (description : Description) :
    KeepsOrder (realize identity description) := by
  cases description with
  | symbol description => exact describe_keeps identity (.symbol description) trivial
  | function source => exact describe_keeps identity (.function source) trivial
  | record entries => exact fill_keeps identity entries
  | array items =>
    refine .bind (.bind (makeItems_keeps #[] items) fun _ => .of_pure _) fun values => ?_
    exact describe_keeps identity (.array values) trivial
  | plainError message stack =>
    refine (make_keeps message).bind fun message => (make_keeps stack).bind fun stack => ?_
    refine .bind (.of_ask _) fun error => ?_
    exact describe_keeps identity (.error error) trivial
  | codedError family metadata message stack =>
    refine .bind (add_keeps (.record {}) List.Pairwise.nil) fun record => ?_
    refine (fill_keeps record metadata).bind fun _ => ?_
    refine (make_keeps message).bind fun message => (make_keeps stack).bind fun stack => ?_
    refine .bind (.of_ask _) fun error => ?_
    exact describe_keeps identity (.error error) trivial

theorem realizeFrom_keeps (identity : Nat) (descriptions : List Description) :
    KeepsOrder (realizeFrom identity descriptions) := by
  induction descriptions generalizing identity with
  | nil => exact .of_pure ()
  | cons description rest ih => exact (realize_keeps identity description).bind fun _ => ih _

theorem announced_orderly (count : Nat) : Orderly ⟨Array.replicate count default⟩ := by
  intro identity
  have blank : Heap.entity ⟨Array.replicate count default⟩ identity = default := by
    simp [entity, Array.getElem?_replicate]
    split <;> rfl
  rw [blank]
  exact List.Pairwise.nil

theorem declare_orderly {descriptions : List Description} {before after : Heap}
    (declared : declare descriptions before = .ok () after) : after.Orderly :=
  (realizeFrom_keeps 0 descriptions).succeeds (announced_orderly descriptions.length) declared

end Heap

end Collections
