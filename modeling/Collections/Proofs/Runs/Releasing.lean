import Collections.Proofs.OrderedSet.Search
import Collections.Proofs.Runs.Conduct

set_option autoImplicit false

namespace Collections

/-- What a container owes its destructor when it ends: a call for each element but the null ones. -/
def owing (destructor : Option String) (values : List Value) : List (String × Value) :=
  match destructor with
  | some name => (values.filter fun value => !value.isNull).map fun value => (name, value)
  | none => []

theorem owing_append (destructor : Option String) (left right : List Value) :
    owing destructor (left ++ right) = owing destructor left ++ owing destructor right := by
  cases destructor <;> simp [owing]

theorem owing_cons (name : String) (value : Value) (rest : List Value) :
    owing (some name) (value :: rest) =
      (if !value.isNull then [(name, value)] else []) ++ owing (some name) rest := by
  cases null : value.isNull <;> simp [owing, null]

def Conducts.Releases (conducts : Conducts) : Prop :=
  ∀ call destructor value, (conducts.destruct call destructor value).outcome = .ok ()

def Conducts.BreaksOff (conducts : Conducts) (owed calls : List (String × Value))
    (failure : Failure) : Prop :=
  calls <+: owed ∧ ∃ call last, calls.getLast? = some last ∧
    (conducts.destruct call last.1 last.2).outcome = .error failure

def Conducts.Walks {α : Type} (conducts : Conducts) (action : Action Diary α)
    (owed : List (String × Value)) (before : State Diary) : Prop :=
  Ends action before
    (fun _ after => after.containers = before.containers ∧
      after.outside.destructed = before.outside.destructed ++ owed)
    fun failure after => after.containers = before.containers ∧ ∃ calls,
      after.outside.destructed = before.outside.destructed ++ calls ∧
        conducts.BreaksOff owed calls failure

def Conducts.Pays {α : Type} (conducts : Conducts) (action : Action Diary α)
    (owed : List (String × Value)) (before : State Diary) : Prop :=
  Ends action before
    (fun _ after => after.outside.destructed = before.outside.destructed ++ owed)
    fun failure after => after.containers = before.containers ∧ ∃ calls,
      after.outside.destructed = before.outside.destructed ++ calls ∧
        conducts.BreaksOff owed calls failure

section Walking

variable {conducts : Conducts} {host : Callbacks Diary} {before : State Diary}
  {owed calls : List (String × Value)} {failure : Failure}

namespace Conducts

theorem BreaksOff.append_left (earlier : List (String × Value))
    (breaks : conducts.BreaksOff owed calls failure) :
    conducts.BreaksOff (earlier ++ owed) (earlier ++ calls) failure := by
  obtain ⟨within, call, last, ends, failed⟩ := breaks
  exact ⟨(List.prefix_append_right_inj earlier).2 within, call, last, by simp [ends], failed⟩

theorem BreaksOff.append_right (breaks : conducts.BreaksOff owed calls failure)
    (later : List (String × Value)) : conducts.BreaksOff (owed ++ later) calls failure :=
  ⟨breaks.1.trans (List.prefix_append owed later), breaks.2⟩

theorem BreaksOff.ne_nil (breaks : conducts.BreaksOff owed calls failure) : calls ≠ [] := by
  obtain ⟨_, _, _, ends, _⟩ := breaks
  rintro rfl
  cases ends

theorem Releases.not_breaksOff (releases : conducts.Releases) :
    ¬ conducts.BreaksOff owed calls failure := by
  rintro ⟨_, call, last, _, failed⟩
  rw [releases] at failed
  cases failed

theorem Pays.answer {α β : Type} {action : Action Diary α} (pays : conducts.Pays action owed before)
    (answer : β) : conducts.Pays (do let _ ← action; return answer) owed before :=
  Ends.bind pays fun _ _ told => told

theorem Pays.succeeds {α : Type} {action : Action Diary α} (releases : conducts.Releases)
    (pays : conducts.Pays action owed before) : Succeeds action before fun _ after =>
      after.outside.destructed = before.outside.destructed ++ owed :=
  Ends.succeeds <| Ends.imp pays (fun _ _ told => told) fun _ _ told => by
    obtain ⟨_, _, _, breaks⟩ := told
    exact releases.not_breaksOff breaks

theorem Walks.append {α β : Type} {action : Action Diary α} {next : Action Diary β}
    {later : List (String × Value)} (first : conducts.Walks action owed before)
    (second : ∀ middle, middle.containers = before.containers → conducts.Walks next later middle) :
    conducts.Walks (action >>= fun _ => next) (owed ++ later) before := by
  refine Ends.bind (first.imp (fun _ _ told => told) fun _ _ told => ?_) fun _ middle told => ?_
  next =>
    obtain ⟨same, calls, traced, breaks⟩ := told
    exact ⟨same, calls, traced, breaks.append_right later⟩
  next =>
    refine (second middle told.1).imp (fun _ _ ends => ?_) fun _ _ ends => ?_
    · exact ⟨ends.1.trans told.1, by rw [ends.2, told.2, List.append_assoc]⟩
    · obtain ⟨same, calls, traced, breaks⟩ := ends
      refine ⟨same.trans told.1, owed ++ calls, ?_, breaks.append_left owed⟩
      rw [traced, told.2, List.append_assoc]

theorem Walks.of_pure {α : Type} (result : α) (before : State Diary) :
    conducts.Walks (pure result) [] before :=
  ⟨rfl, (List.append_nil _).symm⟩

variable (conducts host) in
theorem destruct_walks (destructor : String) (value : Value) (before : State Diary) :
    conducts.Walks ((conducts.quietly host).destruct destructor value) [(destructor, value)] before := by
  apply Ends.bind_eq rfl
  apply Ends.bind_eq rfl
  apply Ends.bind_eq rfl
  cases outcome : (conducts.destruct before.outside.calls destructor value).outcome with
  | ok => exact ⟨rfl, rfl⟩
  | error => exact ⟨rfl, _, rfl, List.prefix_rfl, before.outside.calls, _, rfl, outcome⟩

variable (conducts host) in
theorem releaseOne_walks (destructor : String) (value : Value) (before : State Diary) :
    conducts.Walks
      (if !value.isNull then (conducts.quietly host).destruct destructor value else pure ())
      (owing (some destructor) [value]) before := by
  rw [owing_cons]
  split
  next => simpa [owing] using destruct_walks conducts host destructor value before
  next => simpa [owing] using Walks.of_pure () before

end Conducts

namespace Sequence

variable (conducts host) in
theorem destructFrom_walks (list : Handle Sequence) (destructor : String) (remaining slot : Nat)
    (before : State Diary) :
    conducts.Walks (destructFrom (conducts.quietly host).toCallbacks list destructor slot remaining)
      (owing (some destructor)
        ((before.containers.lists.get list).storage.valuesFrom slot remaining)) before := by
  induction remaining generalizing slot before with
  | zero => exact Conducts.Walks.of_pure () before
  | succ remaining ih =>
    have rest (middle : State Diary) (same : middle.containers = before.containers) :
        conducts.Walks
          (destructFrom (conducts.quietly host).toCallbacks list destructor (slot + 1) remaining)
          (owing (some destructor)
            ((before.containers.lists.get list).storage.valuesFrom (slot + 1) remaining)) middle := by
      simpa only [same] using ih (slot + 1) middle
    generalize there : (before.containers.lists.get list).storage = storage at rest ⊢
    have first : storage.valuesFrom slot (remaining + 1) =
        [storage.read slot] ++ storage.valuesFrom (slot + 1) remaining := rfl
    have walk := (Conducts.releaseOne_walks conducts host destructor (storage.read slot)
      before).append rest
    rw [first, owing_append]
    apply Ends.bind_eq rfl
    rw [there]
    split
    next full => rwa [if_pos full] at walk
    next null => rwa [if_neg null] at walk

theorem release_traces {run : List Operation → Action Diary Unit} (list : Handle Sequence)
    (notice : Notice) (before : State Diary) :
    Succeeds (do
        change list release
        notify (conducts.surroundings host run).toCallbacks list notice) before fun _ after =>
      after.outside.destructed = before.outside.destructed := by
  apply Succeeds.bind_eq rfl
  apply Succeeds.bind_eq rfl
  split
  · exact ⟨(), _, rfl, rfl⟩
  · exact Succeeds.of_pure rfl

variable (conducts host) in
theorem destroy_pays {list : Handle Sequence} {held : Sequence}
    (there : before.containers.lists.cell? list = some held) (live : held.destroyed = false) :
    conducts.Pays (destroy (conducts.quietly host).toCallbacks list)
      (owing held.destructor held.elements) before := by
  apply Ends.bind_eq (requireLive_eq there live .destroy)
  apply Ends.bind_eq (state_eq there)
  cases held.destructor with
  | none => exact ((release_traces _ _ _).imp fun _ _ same => by simpa [owing] using same).ends
  | some destructor =>
    have walk := destructFrom_walks conducts host list destructor held.length 0 before
    rw [Table.get_of_cell? there] at walk
    refine Ends.bind walk fun _ middle told => ?_
    exact ((release_traces _ _ _).imp fun _ _ same => same.trans told.2).ends

theorem destroy_traces (releases : conducts.Releases) (list : Handle Sequence)
    (before : State Diary) :
    Ends (destroy (conducts.quietly host).toCallbacks list) before
      (fun _ after => after.outside.destructed = before.outside.destructed ++
        owing (before.containers.lists.get list).destructor
          (before.containers.lists.get list).elements)
      (fun _ after => after.outside.destructed = before.outside.destructed) := by
  refine requireLive_bind rfl fun held there live => ?_
  rw [Table.get_of_cell? there]
  obtain ⟨result, after, answered, traced⟩ := (destroy_pays conducts host there live).succeeds releases
  rw [destroy, bind_ok (requireLive_eq there live .destroy)] at answered
  exact Succeeds.ends ⟨result, after, answered, traced⟩

end Sequence

namespace OrderedSet

variable (conducts host) in
theorem destroy_pays {set : Handle OrderedSet} {held : OrderedSet}
    (there : before.containers.sets.get set = held) :
    conducts.Pays (destroy (conducts.quietly host).toCallbacks set)
      (owing held.destructor held.items.toList) before := by
  apply Ends.bind_eq rfl
  have clears (middle : State Diary) : Succeeds (change set cleared) middle fun _ after =>
      after.outside.destructed = middle.outside.destructed := ⟨(), _, rfl, rfl⟩
  rw [there]
  cases held.destructor with
  | none => exact ((clears before).imp fun _ _ same => by simpa [owing] using same).ends
  | some destructor =>
    let reached (position : Nat) (state : State Diary) := state.containers = before.containers ∧
      state.outside.destructed = before.outside.destructed ++
        owing (some destructor) (held.items.toList.take position)
    have measures (position : Nat) (ready : State Diary) (kept : reached position ready) :
        (return (← state set).items.size : Action Diary Nat) ready = .ok held.items.size ready := by
      change EStateM.Result.ok (ready.containers.sets.get set).items.size ready = _
      rw [kept.1, there]
    have visits (position : Nat) (ready : State Diary) (inside : position < held.items.size)
        (kept : reached position ready) : Ends (do
          let item := (← state set).item position
          if !item.isNull then (conducts.quietly host).destruct destructor item) ready
          (fun _ => reached (position + 1)) fun failure after =>
            after.containers = before.containers ∧ ∃ calls,
              after.outside.destructed = before.outside.destructed ++ calls ∧
                conducts.BreaksOff (owing (some destructor) held.items.toList) calls failure := by
      have inside : position < held.items.toList.length := inside
      have next := List.take_succ_eq_append_getElem inside
      apply Ends.bind_eq rfl
      rw [kept.1, there, item_eq_getElem held inside]
      refine (Conducts.releaseOne_walks conducts host destructor _ ready).imp (fun _ after told => ?_)
        fun _ after told => ?_
      next =>
        refine ⟨told.1.trans kept.1, ?_⟩
        rw [told.2, kept.2, List.append_assoc, ← owing_append, ← next]
      next =>
        obtain ⟨same, calls, traced, breaks⟩ := told
        have within := (breaks.append_left
          (owing (some destructor) (held.items.toList.take position))).append_right
            (owing (some destructor) (held.items.toList.drop (position + 1)))
        rw [← owing_append, ← next, ← owing_append, List.take_append_drop] at within
        exact ⟨same.trans kept.1, _, by rw [traced, kept.2, List.append_assoc], within⟩
    have start : reached 0 before := ⟨rfl, by simp [owing]⟩
    refine (visitAll_ends (conducts.quietly host).toCallbacks measures visits before start).bind
      fun _ middle told => ((clears middle).imp fun _ _ same => ?_).ends
    rw [same, told.2, ← Array.length_toList, List.take_length]

theorem destroy_traces (releases : conducts.Releases) (set : Handle OrderedSet)
    (before : State Diary) :
    Succeeds (destroy (conducts.quietly host).toCallbacks set) before fun _ after =>
      after.outside.destructed = before.outside.destructed ++
        owing (before.containers.sets.get set).destructor
          (before.containers.sets.get set).items.toList :=
  (destroy_pays conducts host rfl).succeeds releases

end OrderedSet

end Walking

end Collections
