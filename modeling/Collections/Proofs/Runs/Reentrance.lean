import Collections.Proofs.Runs.Teardown

set_option autoImplicit false

namespace Collections

/--
The operation ends no container. It takes no element out of the list and moves none, and it replaces
elements only by what may be put there.
-/
def Operation.Spares (list : Handle Sequence) (may : Value → Prop) : Operation → Prop
  | .set edited _ value => edited = list → may value
  | .append .. | .appendAll .. | .setDestructor .. => True
  | operation => operation.edited? ≠ some list ∧ operation.tearsDown = false

namespace Sequence

variable {fits : Nat → Value → Prop} {count : Nat} {held : Sequence}

structure Retains (held : Sequence) (fits : Nat → Value → Prop) (count : Nat) : Prop where
  live : held.destroyed = false
  whole : count ≤ held.length
  fitting : ∀ slot < count, fits slot (held.storage.read slot)

namespace Retains

theorem grown (retains : held.Retains fits count) : held.grown.Retains fits count := by
  refine ⟨retains.live, retains.whole, fun slot inside => ?_⟩
  have within : slot < held.length := Nat.lt_of_lt_of_le inside retains.whole
  simpa [Sequence.grown, Storage.read_reallocate _ _ within] using retains.fitting slot inside

theorem write (retains : held.Retains fits count) {value : Value} (anywhere : ∀ slot, fits slot value)
    (slot : Nat) : (held.write slot value).Retains fits count := by
  refine ⟨retains.live, retains.whole, fun other inside => ?_⟩
  rw [Sequence.write, Storage.read_write]
  split
  · exact anywhere other
  · exact retains.fitting other inside

theorem push (retains : held.Retains fits count) (value : Value) :
    (held.push value).Retains fits count := by
  have whole := retains.whole
  refine ⟨retains.live, Nat.le_succ_of_le whole, fun slot inside => ?_⟩
  rw [Sequence.push, Storage.read_write, if_neg (by omega)]
  exact retains.fitting slot inside

theorem assigned (retains : held.Retains fits count) (destructor : Option String) :
    { held with destructor }.Retains fits count :=
  ⟨retains.live, retains.whole, retains.fitting⟩

end Retains

end Sequence

def State.Retains (list : Handle Sequence) (fits : Nat → Value → Prop) (count : Nat)
    (released : List (String × Value)) (state : State Diary) : Prop :=
  (∃ held, state.containers.lists.cell? list = some held ∧ held.Retains fits count) ∧
    state.outside.destructed = released

section Scripts

variable {host : Callbacks Diary} {conducts : Conducts} {list : Handle Sequence}
  {may : Value → Prop} {fits : Nat → Value → Prop} {count : Nat} {released : List (String × Value)}
  {run : List Operation → Action Diary Unit}

theorem retaining_invariant (ordinary : host.Ordinary) {allowed : Operation → Prop}
    (within : conducts.Within allowed)
    (runs : ∀ script : List Operation, (∀ operation ∈ script, allowed operation) →
      Keeps (State.Retains list fits count released) (run script)) :
    Invariant (conducts.surroundings host run) (· ≠ list) (State.Retains list fits count released) := by
  refine within.invariant ordinary runs ?_ ?_ (fun _ _ retains => retains)
    (fun _ _ retains => retains) fun _ _ _ _ retains => retains
  next =>
    rintro state edited step elsewhere ⟨⟨held, there, retains⟩, traced⟩ _
    refine ⟨⟨held, ?_, retains⟩, traced⟩
    dsimp only
    rw [Table.cell?_modify, if_neg (Ne.symm elsewhere), there]
  next =>
    rintro state fresh ⟨⟨held, there, retains⟩, traced⟩ _
    exact ⟨Table.added_ne there fresh, ⟨held, Table.cell?_add_of_there there fresh, retains⟩, traced⟩

theorem change_retains {step : Sequence → Sequence}
    (steps : ∀ held : Sequence, held.Retains fits count → (step held).Retains fits count) :
    Keeps (State.Retains list fits count released) (Sequence.change list step) := by
  rintro before ⟨⟨held, there, retains⟩, traced⟩
  refine ⟨⟨step held, ?_, steps held retains⟩, traced⟩
  dsimp only
  rw [Table.cell?_modify, if_pos rfl, there]
  rfl

theorem append_retains
    (invariant : Invariant (conducts.surroundings host run) (· ≠ list)
      (State.Retains list fits count released)) (value : Value) :
    Keeps (State.Retains list fits count released)
      (Sequence.append (conducts.surroundings host run).toCallbacks list value) := by
  have pushes : Keeps (State.Retains list fits count released) (Sequence.change list (·.push value)) :=
    change_retains fun _ retains => retains.push value
  refine (Keeps.requireLive list .append).bind fun _ => (Keeps.list_state list).bind fun held => ?_
  split
  · refine (change_retains fun _ retains => retains.grown).bind fun _ => ?_
    exact (invariant.trimming.notify list _).bind fun _ => pushes
  · exact pushes

theorem perform_retains
    (invariant : Invariant (conducts.surroundings host run) (· ≠ list)
      (State.Retains list fits count released))
    (puts : ∀ value, may value → ∀ slot, fits slot value) {operation : Operation}
    (spares : operation.Spares list may) :
    Keeps (State.Retains list fits count released)
      (perform (conducts.surroundings host run) operation) := by
  have elsewhere (other : operation.edited? ≠ some list) (lasts : operation.tearsDown = false) :
      Keeps (State.Retains list fits count released)
        (perform (conducts.surroundings host run) operation) :=
    invariant.perform_keeps operation (fun edited told same => other (same ▸ told))
      (fun _ _ _ retains => retains) (by simp [lasts])
  -- Only four operations edit the list and spare it.
  have unlessOwn {edited : Handle Sequence} (edits : operation.edited? = some edited)
      (lasts : operation.tearsDown = false)
      (own : edited = list → Keeps (State.Retains list fits count released)
        (perform (conducts.surroundings host run) operation)) :
      Keeps (State.Retains list fits count released)
        (perform (conducts.surroundings host run) operation) := by
    by_cases same : edited = list
    · exact own same
    · exact elsewhere (by simpa [edits] using same) lasts
  cases operation with
  | set edited index value =>
    refine unlessOwn rfl rfl fun same => ?_
    have writes (slot : Nat) :
        Keeps (State.Retains list fits count released) (Sequence.change edited (·.write slot value)) :=
      same ▸ change_retains fun _ retains => retains.write (puts value (spares same)) slot
    refine Keeps.bind ((Keeps.requireLive edited .set).bind fun _ => ?_) fun _ => .of_pure _
    exact (Keeps.requireSlot edited index).bind writes
  | append edited value =>
    refine unlessOwn rfl rfl fun same => ?_
    subst same
    exact (append_retains invariant value).bind fun _ => .of_pure _
  | appendAll edited source =>
    refine unlessOwn rfl rfl fun same => ?_
    subst same
    have appends : Keeps (State.Retains edited fits count released) (Sequence.state source >>=
        fun held => held.elements.forM
          (Sequence.append (conducts.surroundings host run).toCallbacks edited)) :=
      (Keeps.list_state source).bind fun held => .forM (append_retains invariant) held.elements
    refine Keeps.bind ((Keeps.requireLive edited .appendAll).bind fun _ => ?_) fun _ => .of_pure _
    split
    · exact (Keeps.of_throw _).bind fun _ => appends
    · exact appends
  | setDestructor edited destructor =>
    refine unlessOwn rfl rfl fun same => ?_
    have assigns : Keeps (State.Retains list fits count released)
        (Sequence.change edited ({ · with destructor })) :=
      same ▸ change_retains fun _ retains => retains.assigned destructor
    exact Keeps.bind ((Keeps.requireLive edited .setDestructor).bind fun _ => assigns) fun _ => .of_pure _
  | _ => exact elsewhere spares.1 spares.2

theorem runWithin_retains (ordinary : host.Ordinary) (within : conducts.Within (Operation.Spares list may))
    (puts : ∀ value, may value → ∀ slot, fits slot value) (depth : Nat) {script : List Operation}
    (spares : ∀ operation ∈ script, operation.Spares list may) :
    Keeps (State.Retains list fits count released) (conducts.runWithin host depth script) :=
  runWithin_keeps (fun _ retains => retains) (fun _ runs _ spares =>
    perform_retains (retaining_invariant ordinary within runs) puts spares) depth spares

theorem runScript_succeeds (surroundings : Surroundings Diary) (script : List Operation)
    (before : State Diary) : Succeeds (runScript surroundings script) before fun _ _ => True := by
  induction script generalizing before with
  | nil => exact ⟨(), _, rfl, trivial⟩
  | cons operation rest ih =>
    unfold Succeeds
    rw [runScript_cons]
    exact ih _

end Scripts

section Releasing

variable {host : Callbacks Diary} {conducts : Conducts} {list : Handle Sequence}
  {may : Value → Prop} {fits : Nat → Value → Prop} {count : Nat} {released : List (String × Value)}
  (ordinary : host.Ordinary) (releases : conducts.Releases)
  (within : conducts.Within (Operation.Spares list may))
  (spares : ∀ call destructor value,
    ∀ operation ∈ (conducts.destruct call destructor value).script, operation.Spares list may)
  (puts : ∀ value, may value → ∀ slot, fits slot value) (depth : Nat)

include ordinary releases within spares puts

theorem destruct_retains (destructor : String) (value : Value) {before : State Diary}
    (retains : before.Retains list fits count released) :
    Succeeds
      ((conducts.surroundings host (conducts.runWithin host (depth + 1))).destruct destructor value)
      before fun _ => State.Retains list fits count (released ++ [(destructor, value)]) := by
  apply Succeeds.bind_eq rfl
  apply Succeeds.bind_eq rfl
  have scripted : Keeps (State.Retains list fits count (released ++ [(destructor, value)]))
      (conducts.runWithin host (depth + 1) _) :=
    runWithin_retains ordinary within puts (depth + 1)
      (spares before.outside.calls destructor value)
  refine ((runScript_succeeds _ _ _).and (scripted _ ?_)).bind fun _ after told => ?_
  · exact ⟨retains.1, congrArg (· ++ [(destructor, value)]) retains.2⟩
  · rw [releases]
    exact Succeeds.of_pure told.2

namespace Sequence

-- What is read at each slot fits there, whatever the calls before have done.
theorem destructFrom_retains (destructor : String) (remaining slot : Nat)
    (end_ : slot + remaining = count) {before : State Diary}
    (retains : before.Retains list fits count released) :
    Succeeds (destructFrom (conducts.surroundings host (conducts.runWithin host (depth + 1))).toCallbacks
      list destructor slot remaining) before fun _ after => ∃ values : List Value,
        values.length = remaining ∧
          (∀ index value, values[index]? = some value → fits (slot + index) value) ∧
            after.Retains list fits count (released ++ owing (some destructor) values) := by
  induction remaining generalizing slot released before with
  | zero => exact Succeeds.of_pure ⟨[], rfl, by simp, by simpa [owing] using retains⟩
  | succ remaining ih =>
    obtain ⟨held, there, holds⟩ := retains.1
    have read : readSlot list slot before = .ok (held.storage.read slot) before := by
      rw [← Table.get_of_cell? there]
      rfl
    have fitting := holds.fitting slot (by omega)
    generalize held.storage.read slot = value at read fitting
    -- Either the value is released or it is null, and nothing is owed for it.
    have rest {middle : State Diary}
        (kept : middle.Retains list fits count (released ++ owing (some destructor) [value])) :
        Succeeds (destructFrom
          (conducts.surroundings host (conducts.runWithin host (depth + 1))).toCallbacks list destructor
            (slot + 1) remaining) middle fun _ after => ∃ values : List Value,
          values.length = remaining + 1 ∧
            (∀ index value, values[index]? = some value → fits (slot + index) value) ∧
              after.Retains list fits count (released ++ owing (some destructor) values) := by
      refine (ih (slot + 1) (by omega) kept).imp fun _ after told => ?_
      obtain ⟨values, length, fit, ends⟩ := told
      refine ⟨value :: values, by simp [length], fun index other named => ?_, ?_⟩
      · cases index with
        | zero =>
          cases named
          exact fitting
        | succ index => simpa [Nat.add_assoc, Nat.add_comm 1] using fit index other named
      · rwa [List.append_assoc, ← owing_append] at ends
    apply Succeeds.bind_eq read
    cases null : value.isNull with
    | true => exact rest (by simpa [owing, null] using retains)
    | false =>
      refine (destruct_retains ordinary releases within spares puts depth destructor value retains).bind
        fun _ middle kept => rest ?_
      simpa [owing, null] using kept

end Sequence

omit puts in
/--
A list may be used while it ends, so long as the destructor takes nothing out of it. Slot for slot the
destructor is called for the element that was there, or for what a script has put in its place.
-/
theorem list_released_amid_callbacks {start : State Diary} {held : Sequence} {name : String}
    (there : start.containers.lists.cell? list = some held) (live : held.destroyed = false)
    (owns : held.destructor = some name) :
    Succeeds (perform (conducts.surroundings host (conducts.runWithin host (depth + 1)))
      (.destroy list)) start fun _ after => ∃ released : List Value,
        after.outside.destructed = start.outside.destructed ++ owing (some name) released ∧
          released.length = held.length ∧
            ∀ (slot : Nat) value, released[slot]? = some value →
              held.elements[slot]? = some value ∨ may value := by
  let fits (slot : Nat) (value : Value) := held.elements[slot]? = some value ∨ may value
  have puts (value : Value) (put : may value) (slot : Nat) : fits slot value := .inr put
  have retains : start.Retains list fits held.length start.outside.destructed := by
    refine ⟨⟨held, there, live, Nat.le_refl _, fun slot inside => .inl ?_⟩, rfl⟩
    simp [Sequence.elements, Storage.valuesFrom, inside]
  have walks := Sequence.destructFrom_retains ordinary releases within spares puts depth name held.length 0
    (Nat.zero_add _) retains
  refine Succeeds.bind ?_ fun _ after told => Succeeds.of_pure told
  apply Succeeds.bind_eq (Sequence.requireLive_eq there live .destroy)
  apply Succeeds.bind_eq (Sequence.state_eq there)
  rw [owns]
  refine walks.bind fun _ middle told => ?_
  obtain ⟨released, length, fit, _, traced⟩ := told
  refine (Sequence.release_traces _ _ _).imp fun _ after same => ?_
  exact ⟨released, same.trans traced, length, fun slot value named => by simpa using fit slot value named⟩

end Releasing

theorem list_released_amid_callbacks_that_add :
    let host := Callbacks.plain Diary fun _ => compareOn Value.rank
    let adding : List Operation :=
      [.append ⟨0⟩ (.integer 9), .set ⟨0⟩ (.number (.ofNat 2)) (.integer 7)]
    let conducts := { Conducts.still with
      destruct := fun call _ _ =>
        { script := if call = 0 then adding else [], outcome := .ok () } }
    let start := conducts.quietFinal host
      [.listOf [.integer 1, .null, .integer 3] { destructor := some "free" }]
    Succeeds (perform (conducts.surroundings host (conducts.runWithin host 1)) (.destroy ⟨0⟩)) start
      fun _ after => ∃ released : List Value,
        after.outside.destructed = owing (some "free") released ∧ released.length = 3 ∧
          ∀ value ∈ released, value ∈ [.integer 1, .null, .integer 3] ∨ value = .integer 7 := by
  intro host adding conducts start
  let held := start.containers.lists.get ⟨0⟩
  have there : start.containers.lists.cell? ⟨0⟩ = some held := rfl
  have live : held.destroyed = false := by decide +kernel
  have owns : held.destructor = some "free" := by decide +kernel
  have elements : held.elements = [.integer 1, .null, .integer 3] := by decide +kernel
  have within : conducts.Within (Operation.Spares ⟨0⟩ (· = .integer 7)) := Conducts.still_within _ _
  have spares (call : Nat) (destructor : String) (value : Value) (operation : Operation)
      (member : operation ∈ (conducts.destruct call destructor value).script) :
      operation.Spares ⟨0⟩ (· = .integer 7) := by
    by_cases first : call = 0
    · simp only [conducts, if_pos first, adding, List.mem_cons, List.not_mem_nil, or_false] at member
      rcases member with rfl | rfl
      · trivial
      · exact fun _ => rfl
    · simp [conducts, if_neg first] at member
  have ordinary : host.Ordinary := Callbacks.plain_ordinary Diary _
  have releases : conducts.Releases := fun _ _ _ => rfl
  refine (list_released_amid_callbacks ordinary releases within spares 0 there live owns).imp
    fun _ after told => ?_
  obtain ⟨released, traced, length, fit⟩ := told
  refine ⟨released, traced, length, fun value member => ?_⟩
  obtain ⟨slot, named⟩ := List.mem_iff_getElem?.1 member
  rw [← elements]
  exact (fit slot value named).imp_left List.mem_of_getElem?

theorem absent_element_released :
    let host := Callbacks.plain Diary fun _ => compareOn Value.rank
    let conducts := { Conducts.still with
      destruct := fun call _ _ =>
        { script := if call = 0 then [.pop ⟨0⟩] else [], outcome := .ok () } }
    let start := conducts.quietFinal host
      [.listOf [.integer 1, .integer 2] { destructor := some "free" }]
    let surroundings := conducts.surroundings host (conducts.runWithin host 1)
    (start.containers.lists.get ⟨0⟩).elements = [.integer 1, .integer 2] ∧
      (attempt (perform surroundings (.destroy ⟨0⟩)) start).2.outside.destructed =
        [("free", .integer 1), ("free", .undefined)] := by
  decide +kernel

end Collections
