import Collections.Proofs.Runs.Failing
import Collections.Proofs.Runs.Finality

set_option autoImplicit false

namespace Collections

variable {host : Callbacks Diary} {conducts : Conducts} {list : Handle Sequence}
  {fits : Sequence → Prop} {early : List Containers} {held : Sequence}

def State.Holds (list : Handle Sequence) (fits : Sequence → Prop) (early : List Containers)
    (state : State Diary) : Prop :=
  (∃ now, state.containers.lists.cell? list = some now ∧ fits now) ∧
    ∃ since, state.outside.moments = early ++ since ∧
      ∀ moment ∈ since, ∃ was, moment.lists.cell? list = some was ∧ fits was

namespace State.Holds

variable {state : State Diary} {others : Sequence → Prop}

theorem imp (holds : state.Holds list fits early) (implies : ∀ now, fits now → others now) :
    state.Holds list others early := by
  obtain ⟨⟨now, there, suits⟩, since, moments, were⟩ := holds
  refine ⟨⟨now, there, implies now suits⟩, since, moments, fun moment member => ?_⟩
  obtain ⟨was, there, suits⟩ := were moment member
  exact ⟨was, there, implies was suits⟩

theorem note : Keeps (State.Holds list fits early) noteMoment := by
  intro before holds
  obtain ⟨now, since, moments, were⟩ := holds
  refine ⟨now, since ++ [before.containers], ?_, ?_⟩
  · change before.outside.moments ++ [before.containers] = _
    rw [moments, List.append_assoc]
  · intro moment member
    rcases List.mem_append.1 member with earlier | last
    · exact were moment earlier
    · exact List.mem_singleton.1 last ▸ now

theorem change {step : Sequence → Sequence} (closed : ∀ now, fits now → fits (step now)) :
    Keeps (State.Holds list fits early) (Sequence.change list step) := by
  rintro before ⟨⟨now, there, suits⟩, since⟩
  refine ⟨⟨step now, ?_, closed now suits⟩, since⟩
  dsimp only
  rw [Table.cell?_modify, if_pos rfl, there]
  rfl

end State.Holds

theorem holds_invariant (ordinary : host.Ordinary) :
    Invariant (conducts.quietly host) (· ≠ list) (State.Holds list fits early) := by
  refine conducts.unrestricted.invariant ordinary (fun _ _ => State.Holds.note) ?_ ?_
    (fun _ _ holds => holds) (fun _ _ holds => holds) fun _ _ _ _ holds => holds
  next =>
    rintro state edited step elsewhere ⟨⟨now, there, suits⟩, since⟩ _
    refine ⟨⟨now, ?_, suits⟩, since⟩
    dsimp only
    rw [Table.cell?_modify, if_neg (Ne.symm elsewhere), there]
  next =>
    rintro state fresh ⟨⟨now, there, suits⟩, since⟩ _
    exact ⟨Table.added_ne there fresh, ⟨now, Table.cell?_add_of_there there fresh, suits⟩, since⟩

theorem destruct_holds (destructor : String) (value : Value) :
    Keeps (State.Holds list fits early) ((conducts.quietly host).destruct destructor value) := by
  exact destruct_keeps (fun _ holds => holds) (fun _ _ _ holds => holds) (fun _ => State.Holds.note)
    destructor value

theorem perform_elsewhere (ordinary : host.Ordinary) {operation : Operation}
    (elsewhere : operation.edited? ≠ some list) :
    Keeps (State.Holds list fits early) (perform (conducts.quietly host) operation) :=
  (holds_invariant ordinary).perform_keeps operation
    (fun _ edits same => elsewhere (same ▸ edits)) (fun _ _ _ holds => holds)
    fun _ => destruct_holds

section Settling

variable {before : State Diary}

theorem State.Holds.start (there : before.containers.lists.cell? list = some held) (suits : fits held) :
    before.Holds list fits before.outside.moments :=
  ⟨⟨held, there, suits⟩, [], (List.append_nil _).symm, by simp⟩

theorem requireSlot_inside (there : before.containers.lists.cell? list = some held) (index : Value) :
    Ends (Sequence.requireSlot list index) before (fun slot after => after = before ∧ slot < held.length)
      fun _ after => after = before := by
  apply Ends.bind_eq (Sequence.state_eq there)
  split
  next slot names =>
    refine ⟨rfl, ?_⟩
    unfold Sequence.slot? at names
    split at names
    · simpa using (Option.filter_eq_some_iff.1 names).2
    · cases names
  next => rfl

theorem quietly_draws {keeps : State Diary → Prop} (counts : Keeps keeps countCall)
    (notes : Keeps keeps noteMoment) {told : Number → Prop} {source : Option SourceId}
    {lower upper : Number}
    (answers : ∀ call drawn, (conducts.draw call source lower upper).outcome = .ok drawn → told drawn)
    (start : keeps before) :
    Ends ((conducts.quietly host).draw source lower upper) before
      (fun answer after => (∃ drawn, answer = .ofNumber drawn ∧ told drawn) ∧ keeps after)
      fun _ => keeps := by
  have acts : Ends (act (fun _ => noteMoment) (conducts.draw · source lower upper)) before
      (fun drawn after => told drawn ∧ keeps after) fun _ => keeps := by
    refine (counts before start).bind fun call _ counted => (notes _ counted).bind fun _ _ noted => ?_
    cases outcome : (conducts.draw call source lower upper).outcome with
    | ok drawn => exact ⟨answers call drawn outcome, noted⟩
    | error failure => exact noted
  exact acts.bind fun drawn _ told => ⟨⟨drawn, rfl, told.1⟩, told.2⟩

end Settling

section Stirring

structure Sequence.Stirred (held now : Sequence) : Prop where
  settles : held.Settles now
  length : now.length = held.length
  zero : now.negativeZero = held.negativeZero
  live : now.destroyed = false

namespace Sequence.Stirred

variable {now : Sequence}

theorem write (stirred : held.Stirred now) {slot : Nat} (inside : slot < held.length) (value : Value) :
    held.Stirred (now.write slot value) := by
  have room := stirred.settles.room
  rw [stirred.length] at room
  exact ⟨stirred.settles.write (Nat.lt_of_lt_of_le inside room) value, stirred.length, stirred.zero,
    stirred.live⟩

theorem putAside (stirred : held.Stirred now) (position : Position) (value : Value) :
    held.Stirred (now.putAside position value) :=
  ⟨stirred.settles.becomes rfl (Nat.le_refl _) ⟨rfl, rfl⟩, stirred.length, stirred.zero, stirred.live⟩

theorem turn (stirred : held.Stirred now) : held.Stirred now.turn :=
  ⟨stirred.settles.turn, stirred.length, stirred.zero, stirred.live⟩

theorem reportedLength_eq (stirred : held.Stirred now) : now.reportedLength = held.reportedLength := by
  unfold reportedLength
  rw [stirred.zero, stirred.length]

end Sequence.Stirred

theorem Sequence.Stirred.overwrite {now : Sequence} (stirred : held.Stirred now) {values : List Value}
    (fits : values.length ≤ held.capacity) : held.Stirred (now.overwrite values) := by
  have capacity := (stirred.settles.live stirred.live).1
  exact ⟨stirred.settles.overwrite (capacity ▸ fits), stirred.length, stirred.zero, stirred.live⟩

-- A copy of the elements is sorted, so that the list is written to only when all is done.
theorem sort_overwrites (ordinary : host.Ordinary) (comparator : ComparatorId) {before : State Diary}
    (there : before.containers.lists.cell? list = some held) (steady : held.Steady)
    (live : held.destroyed = false) {keeps : State Diary → Prop}
    (contract : Contract (conducts.quietly host) keeps) (start : keeps before)
    (overwrites : ∀ values : List Value, values.length = held.length →
      Keeps keeps (Sequence.change list (·.overwrite values))) :
    Ends (Sequence.sort (conducts.quietly host).toCallbacks list (some comparator)) before
      (fun _ => keeps) fun _ => keeps := by
  apply Ends.bind_eq (Sequence.requireLive_eq there live .sort)
  have copies := Sequence.copyOut_all (quietly_ordinary ordinary : (conducts.quietly host).Ordinary)
    there steady
  refine copies.ends.bind fun copied after told => ?_
  obtain ⟨rfl, rfl⟩ := told
  have sorts := (StableSort.sort_ends _ (held.elements.map some |>.filterMap id) after).and
    (Keeps.sort (contract.below (some comparator)) _ after start)
  refine (sorts.imp (fun _ _ told => told) fun _ _ told => told.2).bind fun sorted middle told => ?_
  obtain ⟨permuted, kept⟩ := told
  have whole : sorted.length = held.length := by
    simpa [Sequence.elements, Storage.valuesFrom] using permuted.length_eq
  exact ((overwrites sorted whole).bind fun _ => .ite (.of_throw _) (.of_pure _)) middle kept

theorem Number.position_cases (number : Number) :
    (∃ slot, Position.ofNumber number = .slot slot) ∨ Position.ofNumber number = .named number.toText := by
  unfold Position.ofNumber
  split
  next slot _ => exact .inl ⟨slot, rfl⟩
  next => exact .inr rfl

theorem Number.position_eq_slot (number : Number) {slot : Nat} :
    Position.ofNumber number = .slot slot ↔ number.toNat? = some slot ∧ slot < (1 <<< 32) - 1 := by
  unfold Position.ofNumber
  split
  next index counted =>
    obtain ⟨counted, small⟩ := Option.filter_eq_some_iff.1 counted
    have small : index < (1 <<< 32) - 1 := by simpa using small
    simp only [Position.slot.injEq, counted, Option.some.injEq]
    exact ⟨fun same => ⟨same, same ▸ small⟩, And.left⟩
  next none =>
    refine ⟨nofun, fun ⟨counted, small⟩ => ?_⟩
    simp only [counted, Option.filter_eq_none_iff, Option.some.injEq, forall_eq'] at none
    exact absurd (decide_eq_true small) none

structure Exchanges (surroundings : Surroundings Diary) (list : Handle Sequence) (held : Sequence)
    (drawn : Number → Prop) (keeps : State Diary → Prop) : Prop extends
    Contract surroundings keeps where
  shows : ∀ {state}, keeps state → ∃ now, state.containers.lists.cell? list = some now ∧
    now.length = held.length ∧ now.reportedLength = held.reportedLength
  draws : ∀ {state} source, keeps state → 0 < held.length →
    Ends (surroundings.draw source (.zero false) held.reportedLength) state
      (fun answer after => (∃ number, answer = .ofNumber number ∧ drawn number) ∧ keeps after)
      fun _ => keeps
  inside : ∀ {number slot}, drawn number → Position.ofNumber number = .slot slot → slot < held.length
  writes : ∀ {slot}, slot < held.length → ∀ value, Keeps keeps (Sequence.change list (·.write slot value))
  puts : ∀ {number}, drawn number → (∀ slot, Position.ofNumber number ≠ .slot slot) → ∀ value,
    Keeps keeps (Sequence.change list (·.putAside (.named number.toText) value))
  assigns : ∀ {state} parent (number : Number) value, keeps state →
    Ends (surroundings.assignAbove parent number.toText value) state
      (fun assigned after => (∀ linked, assigned ≠ .linked linked) ∧ keeps after) fun _ => keeps

namespace Exchanges

variable {surroundings : Surroundings Diary} {drawn : Number → Prop} {keeps : State Diary → Prop}
  (exchanges : Exchanges surroundings list held drawn keeps)

include exchanges

theorem writeAt {number : Number} (told : drawn number) (value : Value) :
    Keeps keeps (Sequence.writeAt surroundings.toCallbacks list (.ofNumber number) value) := by
  rcases number.position_cases with ⟨slot, position⟩ | position
  next =>
    rw [position]
    exact exchanges.writes (exchanges.inside told position) value
  next =>
    have putting := exchanges.puts told (fun slot => by simp [position]) value
    rw [position]
    refine (Keeps.list_state list).bind fun held => .ite putting fun before start => ?_
    refine (exchanges.assigns _ number value start).bind fun assigned after told => ?_
    cases assigned with
    | kept => exact putting after told.2
    | linked parent => exact (told.1 parent rfl).elim
    | gone => exact told.2

theorem swap {slot : Nat} (inside : slot < held.length) {number : Number} (told : drawn number) :
    Keeps keeps (Sequence.swap surroundings.toCallbacks list slot (.ofNumber number)) :=
  (Keeps.readSlot list slot).bind fun value =>
    (exchanges.readAt list (.ofNumber number)).bind fun drawn =>
      (exchanges.writes inside drawn).bind fun _ => exchanges.writeAt told value

theorem shuffle {before : State Diary} (there : before.containers.lists.cell? list = some held)
    (live : held.destroyed = false) (start : keeps before) :
    Ends (Sequence.shuffle surroundings.toCallbacks list) before (fun _ => keeps) fun _ => keeps := by
  apply Ends.bind_eq (Sequence.requireLive_eq there live .shuffle)
  have measures (position : Nat) (state : State Diary) (kept : keeps state) :
      (return (← Sequence.state list).length : Action Diary Nat) state = .ok held.length state := by
    obtain ⟨now, found, length, _⟩ := exchanges.shows kept
    rw [← length]
    exact bind_ok (Sequence.state_eq found)
  refine visitAll_ends surroundings.toCallbacks measures (fun slot state inside kept => ?_) before start
  -- What is asked of the random source depends on the length alone, which no swap changes.
  obtain ⟨now, found, _, reported⟩ := exchanges.shows kept
  apply Ends.bind_eq (Sequence.state_eq found)
  rw [reported]
  refine (exchanges.draws now.random kept (Nat.zero_lt_of_lt inside)).bind fun drawn after told => ?_
  obtain ⟨⟨number, rfl, told⟩, kept⟩ := told
  exact exchanges.swap inside told after kept

end Exchanges

end Stirring

section Settling

namespace Sequence

variable {before : State Diary}

theorem Trim.settles {now after : Sequence} (trim : now.Trim after) (settles : held.Settles now) :
    held.Settles after := by
  cases trim with
  | shiftedOut slot => exact settles.shiftOut slot
  | turned => exact settles.turn
  | assigned live destructor => exact settles.becomes rfl (Nat.le_refl _) ⟨rfl, rfl⟩
  | abandoned => exact settles.becomes rfl (Nat.le_refl _) ⟨rfl, rfl⟩
  | released => exact .release held now

end Sequence

theorem Operation.guarded_of_edited {operation : Operation} (edits : operation.edited? = some list) :
    ∃ guard, operation.guarded? = some (list, guard) := by
  cases operation with
  | destroyIfPresent present =>
    cases edits
    exact ⟨_, rfl⟩
  | _ => cases edits <;> exact ⟨_, rfl⟩

theorem perform_dead (ordinary : host.Ordinary) {before : State Diary}
    (there : before.containers.lists.cell? list = some held) (destroyed : held.destroyed = true)
    (suits : fits held) (operation : Operation) :
    Ends (perform (conducts.quietly host) operation) before
      (fun _ => State.Holds list fits before.outside.moments)
      fun _ => State.Holds list fits before.outside.moments := by
  have start : before.Holds list fits before.outside.moments := .start there suits
  -- What edits a list checks it first.
  by_cases edits : operation.edited? = some list
  next =>
    obtain ⟨guard, guards⟩ := operation.guarded_of_edited edits
    have refused : Refused (perform (conducts.quietly host) operation) before guard :=
      perform_refused ((Table.get_of_cell? there).symm ▸ destroyed) _ guards
    unfold Ends
    rw [refused]
    exact start
  next => exact perform_elsewhere ordinary edits before start

end Settling

end Collections
