import Collections.Proofs.Callbacks
import Collections.Proofs.Runs.Invariant

set_option autoImplicit false

/-!
Runs in which callbacks may do anything. What a callback does may differ from call to call: it
performs a script of operations, on any containers, and then answers or fails. A diary is kept of what
no operation sees.
-/

namespace Collections

structure Conduct (α : Type) where
  script : List Operation := []
  outcome : Except Failure α

/-- What callbacks do at each call of a run; calls are numbered in the order in which they come. -/
structure Conducts where
  destruct : Nat → String → Value → Conduct Unit
  compare : Nat → ComparatorId → Value → Value → Conduct Ordering
  test : Nat → PredicateId → Value → Conduct Bool
  draw : Nat → Option SourceId → Number → Number → Conduct Number

structure Diary where
  calls : Nat := 0
  -- The containers between operations, and whenever a callback was called.
  moments : List Containers := []
  destructed : List (String × Value) := []
  notices : List (String × Notice) := []

def State.noted (state : State Diary) : State Diary :=
  { state with outside :=
      { state.outside with moments := state.outside.moments ++ [state.containers] } }

def noteMoment : Action Diary Unit := modify State.noted

def noteDestructed (destructor : String) (value : Value) : Action Diary Unit :=
  modify fun state =>
    { state with outside :=
        { state.outside with destructed := state.outside.destructed ++ [(destructor, value)] } }

def countCall : Action Diary Nat :=
  modifyGet fun state =>
    (state.outside.calls, { state with outside :=
        { state.outside with calls := state.outside.calls + 1 } })

-- A script goes on whether an operation fails or not.
def runScript (surroundings : Surroundings Diary) : List Operation → Action Diary Unit
  | [] => noteMoment
  | operation :: rest => do
      noteMoment
      tryCatch (do let _ ← perform surroundings operation) fun _ => return ()
      runScript surroundings rest

def act {α : Type} (run : List Operation → Action Diary Unit) (conduct : Nat → Conduct α) :
    Action Diary α := do
  let call ← countCall
  run (conduct call).script
  resultOf (conduct call).outcome

namespace Conducts

def still : Conducts where
  destruct _ _ _ := { outcome := .ok () }
  compare _ _ _ _ := { outcome := .ok .eq }
  test _ _ _ := { outcome := .ok true }
  draw _ _ lower _ := { outcome := .ok lower }

variable (conducts : Conducts) (host : Callbacks Diary)

def surroundings (run : List Operation → Action Diary Unit) : Surroundings Diary :=
  { host with
    destruct := fun destructor value => do
      noteDestructed destructor value
      act run (conducts.destruct · destructor value)
    compare := fun comparator left right => do
      let order ← act run (conducts.compare · comparator left right)
      return { order }
    draw := fun source lower upper => do
      let drawn ← act run (conducts.draw · source lower upper)
      return .ofNumber drawn
    notify := fun logger notice diary =>
      { diary with notices := diary.notices ++ [(logger, notice)] }
    test := fun predicate value => act run (conducts.test · predicate value) }

def DrawsWithin : Prop :=
  ∀ call source lower upper drawn, (conducts.draw call source lower upper).outcome = .ok drawn →
    ∃ slot length, drawn.toNat? = some slot ∧ upper.toNat? = some length ∧ slot < length

structure Within (allowed : Operation → Prop) : Prop where
  compare : ∀ call comparator left right,
    ∀ operation ∈ (conducts.compare call comparator left right).script, allowed operation
  test : ∀ call predicate value,
    ∀ operation ∈ (conducts.test call predicate value).script, allowed operation
  draw : ∀ call source lower upper,
    ∀ operation ∈ (conducts.draw call source lower upper).script, allowed operation

/-- Callbacks that only answer or fail, and leave their scripts alone. -/
def quietly : Surroundings Diary := conducts.surroundings host fun _ => noteMoment

def quietFinal (script : List Operation) : State Diary :=
  (attempt (runScript (conducts.quietly host) script) { outside := {} }).2

/-- Runs a script in which callbacks act within callbacks, but only so deep. -/
def runWithin : Nat → List Operation → Action Diary Unit
  | 0, [] => noteMoment
  | 0, _ :: _ => do
      noteMoment
      throw .endless
  | depth + 1, script => runScript (conducts.surroundings host (runWithin depth)) script

def final (depth : Nat) (script : List Operation) : State Diary :=
  (attempt (conducts.runWithin host depth script) { outside := {} }).2

end Conducts

def OnlyReads {Outside α : Type} (action : Action Outside α) : Prop :=
  ∀ before, Ends action before (fun _ after => after = before) (fun _ after => after = before)

theorem OnlyReads.keeps {Outside α : Type} {action : Action Outside α} {keeps : State Outside → Prop}
    (reads : OnlyReads action) : Keeps keeps action :=
  fun before start =>
    (reads before).imp (fun _ _ same => same ▸ start) fun _ _ same => same ▸ start

theorem OnlyReads.advances {Outside α : Type} {action : Action Outside α} (reads : OnlyReads action) :
    OnlyAdvances action :=
  fun before =>
    (reads before).imp (fun _ _ same => same ▸ .refl before) fun _ _ same => same ▸ .refl before

namespace Callbacks

variable {Outside : Type}

/--
What storages rely on. To look above one changes nothing, to assign under the text of a number gives
it no parent, and one that has nothing but what all storages share can be copied.
-/
structure Ordinary (callbacks : Callbacks Outside) : Prop where
  looks : ∀ parent name, OnlyReads (callbacks.lookAbove parent name)
  requires : ∀ copying constructing, OnlyReads (callbacks.requireCopyable copying constructing)
  assigns : ∀ parent (number : Number) value before,
    Ends (callbacks.assignAbove parent number.toText value) before
      (fun assigned after => (∀ linked, assigned ≠ .linked linked) ∧ after = before)
      (fun _ after => after = before)
  copies : ∀ before, Succeeds callbacks.requirePlainCopyable before fun _ after => after = before

theorem plain_ordinary (Outside : Type) (order : ComparatorId → Value → Value → Ordering) :
    (plain Outside order).Ordinary where
  looks _ _ _ := rfl
  requires _ _ _ := rfl
  assigns _ _ _ _ := ⟨nofun, rfl⟩
  copies before := ⟨(), before, rfl, rfl⟩

end Callbacks

section Keeping

variable {conducts : Conducts} {host : Callbacks Diary} {keeps : State Diary → Prop}
  {run : List Operation → Action Diary Unit}

theorem act_keeps {α : Type} {conduct : Nat → Conduct α} (counts : Keeps keeps countCall)
    (runs : ∀ call, Keeps keeps (run (conduct call).script)) : Keeps keeps (act run conduct) :=
  counts.bind fun call => (runs call).bind fun _ => .of_result _

theorem destruct_keeps (counts : Keeps keeps countCall)
    (notes : ∀ destructor value, Keeps keeps (noteDestructed destructor value))
    (runs : ∀ script, Keeps keeps (run script)) (destructor : String) (value : Value) :
    Keeps keeps ((conducts.surroundings host run).destruct destructor value) :=
  (notes destructor value).bind fun _ => act_keeps counts fun _ => runs _

theorem quietly_contract (ordinary : host.Ordinary) (counts : Keeps keeps countCall)
    (notes : Keeps keeps noteMoment)
    (orders : ∀ left right, Keeps keeps (naturalOrder left right)) :
    Contract (conducts.quietly host) keeps := by
  have acts {α : Type} (conduct : Nat → Conduct α) :
      Keeps keeps (act (fun _ => noteMoment) conduct) := act_keeps counts fun _ => notes
  exact {
    orders := orders
    compares := fun _ _ _ => (acts _).bind fun _ => .of_pure _
    tests := fun _ _ => acts _
    looks := fun parent name => (ordinary.looks parent name).keeps
    requires := fun copying constructing => (ordinary.requires copying constructing).keeps }

-- An operation of a script begins right after the moment before it has been noted.
theorem runScript_keeps_noted {surroundings : Surroundings Diary} (notes : Keeps keeps noteMoment)
    {script : List Operation}
    (performs : ∀ operation ∈ script, ∀ before, keeps before →
      Ends (perform surroundings operation) before.noted (fun _ => keeps) fun _ => keeps) :
    Keeps keeps (runScript surroundings script) := by
  induction script with
  | nil => exact notes
  | cons operation rest ih =>
    rw [List.forall_mem_cons] at performs
    intro before start
    have ended := (performs.1 before start).bind fun _ middle kept => Keeps.of_pure () middle kept
    have attempts := ended.tryCatch fun _ middle kept => Keeps.of_pure () middle kept
    exact Ends.bind_eq rfl (attempts.bind fun _ middle kept => ih performs.2 middle kept)

theorem runScript_keeps {surroundings : Surroundings Diary} (notes : Keeps keeps noteMoment)
    {script : List Operation}
    (performs : ∀ operation ∈ script, Keeps keeps (perform surroundings operation)) :
    Keeps keeps (runScript surroundings script) :=
  runScript_keeps_noted notes fun operation member before start =>
    performs operation member before.noted (notes before start)

variable {allowed : Operation → Prop}

theorem runWithin_keeps_noted (notes : Keeps keeps noteMoment)
    (performs : ∀ run, (∀ script : List Operation, (∀ operation ∈ script, allowed operation) →
      Keeps keeps (run script)) → ∀ operation, allowed operation → ∀ before, keeps before →
        Ends (perform (conducts.surroundings host run) operation) before.noted (fun _ => keeps)
          fun _ => keeps)
    (depth : Nat) {script : List Operation} (within : ∀ operation ∈ script, allowed operation) :
    Keeps keeps (conducts.runWithin host depth script) := by
  -- What the induction supposes of shallower runs is what operations suppose of their callbacks.
  induction depth generalizing script with
  | zero =>
    cases script with
    | nil => exact notes
    | cons => exact notes.bind fun _ => .of_throw _
  | succ depth ih =>
    refine runScript_keeps_noted notes fun operation member => ?_
    exact performs _ (fun _ inner => ih inner) operation (within operation member)

theorem runWithin_keeps (notes : Keeps keeps noteMoment)
    (performs : ∀ run, (∀ script : List Operation, (∀ operation ∈ script, allowed operation) →
      Keeps keeps (run script)) → ∀ operation, allowed operation →
        Keeps keeps (perform (conducts.surroundings host run) operation))
    (depth : Nat) {script : List Operation} (within : ∀ operation ∈ script, allowed operation) :
    Keeps keeps (conducts.runWithin host depth script) :=
  runWithin_keeps_noted notes (fun run runs operation may before start =>
    performs run runs operation may before.noted (notes before start)) depth within

theorem final_keeps_noted (notes : Keeps keeps noteMoment)
    (performs : ∀ run, (∀ script, Keeps keeps (run script)) → ∀ operation before, keeps before →
      Ends (perform (conducts.surroundings host run) operation) before.noted (fun _ => keeps)
        fun _ => keeps)
    (start : keeps { outside := {} }) (depth : Nat) (script : List Operation) :
    keeps (conducts.final host depth script) :=
  have performs := fun run runs operation (_ : True) =>
    performs run (fun script => runs script fun _ _ => trivial) operation
  (runWithin_keeps_noted notes performs depth (fun _ _ => trivial) _ start).leaves

theorem final_keeps (notes : Keeps keeps noteMoment)
    (performs : ∀ run, (∀ script, Keeps keeps (run script)) → ∀ operation,
      Keeps keeps (perform (conducts.surroundings host run) operation))
    (start : keeps { outside := {} }) (depth : Nat) (script : List Operation) :
    keeps (conducts.final host depth script) :=
  final_keeps_noted notes (fun run runs operation before start =>
    performs run runs operation before.noted (notes before start)) start depth script

theorem Conducts.unrestricted (conducts : Conducts) : conducts.Within fun _ => True :=
  ⟨fun _ _ _ _ _ _ => trivial, fun _ _ _ _ _ => trivial, fun _ _ _ _ _ _ => trivial⟩

theorem Conducts.still_within (allowed : Operation → Prop)
    (destruct : Nat → String → Value → Conduct Unit) :
    ({ Conducts.still with destruct } : Conducts).Within allowed :=
  ⟨fun _ _ _ _ _ none => (List.not_mem_nil none).elim,
    fun _ _ _ _ none => (List.not_mem_nil none).elim,
    fun _ _ _ _ _ none => (List.not_mem_nil none).elim⟩

section Within

variable {editable : Handle Sequence → Prop} (within : conducts.Within allowed)
  (ordinary : host.Ordinary)
  (runs : ∀ script : List Operation, (∀ operation ∈ script, allowed operation) →
    Keeps keeps (run script))
  (edits : ∀ {state : State Diary} {list : Handle Sequence} (step : Sequence → Sequence),
    editable list → keeps state →
      (∀ held, state.containers.lists.cell? list = some held → held.Edit (step held)) →
        keeps (state.withLists (state.containers.lists.modify list step)))
  (creates : ∀ {state : State Diary} {held : Sequence}, keeps state → held.Fresh →
    editable (state.containers.lists.add held).2 ∧
      keeps (state.withLists (state.containers.lists.add held).1))
  (positions : ∀ {state : State Diary} (cursors : Table Cursor) (traversals : Table Traversal),
    keeps state → keeps { state with containers := { state.containers with cursors, traversals } })
  (ordinals : ∀ {state : State Diary} (left right : Value), keeps state →
    keeps { state with ordinals := (compareNatural state.ordinals left right).2 })
  (remarks : ∀ {state : State Diary} (calls : Nat) (notices : List (String × Notice)),
    state.outside.calls ≤ calls → state.outside.notices <+: notices → keeps state →
      keeps { state with outside := { state.outside with calls, notices } })

include within ordinary runs edits creates positions ordinals remarks

omit positions in
theorem Conducts.Within.upkeep : Upkeep (conducts.surroundings host run) editable keeps := by
  have counts : Keeps keeps countCall := fun before start =>
    remarks _ before.outside.notices (Nat.le_succ _) List.prefix_rfl start
  -- Callbacks keep what scripts keep, since to count a call and to note a notice do not matter.
  exact {
    edits := edits
    creates := creates
    orders := fun left right _ start => ordinals left right start
    notifies := fun {state} _ _ start =>
      remarks state.outside.calls _ (Nat.le_refl _) (List.prefix_append _ _) start
    compares := fun _ _ _ =>
      (act_keeps counts fun call => runs _ (within.compare call _ _ _)).bind fun _ => .of_pure _
    tests := fun _ _ => act_keeps counts fun call => runs _ (within.test call _ _)
    draws := fun _ _ _ before start =>
      (act_keeps counts (fun call => runs _ (within.draw call _ _ _)) before start).bind
        fun drawn _ kept => ⟨⟨drawn, rfl⟩, kept⟩
    looks := fun parent name => (ordinary.looks parent name).keeps
    requires := fun copying constructing => (ordinary.requires copying constructing).keeps
    assigns := fun parent number value before start =>
      (ordinary.assigns parent number value before).imp
        (fun _ _ told => ⟨told.1, told.2 ▸ start⟩) fun _ _ same => same ▸ start }

theorem Conducts.Within.invariant :
    Invariant (conducts.surroundings host run) editable keeps where
  toUpkeep := within.upkeep ordinary runs edits creates ordinals remarks
  cursors := fun state cursors start => positions cursors state.containers.traversals start
  traversals := fun state traversals start => positions state.containers.cursors traversals start

end Within

end Keeping

end Collections
