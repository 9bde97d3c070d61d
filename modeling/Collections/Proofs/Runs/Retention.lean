import Collections.Proofs.Runs.Growth
import Collections.Proofs.Sequence.Tidiness

set_option autoImplicit false

namespace Collections

variable {host : Callbacks Diary} {conducts : Conducts} {list : Handle Sequence} {held : Sequence}
  {before : State Diary}

def Conducts.DrawsInside (conducts : Conducts) : Prop :=
  ∀ call source upper drawn length,
    (conducts.draw call source (.zero false) upper).outcome = .ok drawn →
      upper.toNat? = some (length + 1) → ∃ slot, drawn.toNat? = some slot ∧ slot ≤ length

section Tidying

theorem tidy_contract (ordinary : host.Ordinary) :
    Contract (conducts.quietly host) (State.Always Sequence.Tidy) :=
  quietly_contract ordinary (fun _ always => always) State.Always.note fun _ _ _ always => always

theorem tidy_trimming (ordinary : host.Ordinary) :
    Trimming (conducts.quietly host) (fun _ => True) (State.Always Sequence.Tidy) where
  toContract := tidy_contract ordinary
  trims _ _ always trims := always.edits fun held there tidy => tidy.trim (trims held there)
  notifies _ _ always := always

theorem append_tidies (value : Value) :
    Keeps (State.Always Sequence.Tidy)
      (Sequence.append (conducts.quietly host).toCallbacks list value) := by
  intro before always
  refine Sequence.requireLive_ends always fun held there live => ?_
  refine (Sequence.append_extends (conducts.quietly host).toCallbacks there live value).ends.imp ?_
    fun _ _ failed => failed
  rintro _ after ⟨⟨changes, extended⟩, told⟩
  rw [Conducts.quietly, tellAll_surroundings] at told
  refine always.becomes (fun other now found => ?_) (told ▸ rfl)
  by_cases same : other = list
  next =>
    rw [same, extended] at found
    cases found
    exact (always.now list held there).extend live value
  next => exact always.now other now (changes.others other same ▸ found)

theorem tidy_making (ordinary : host.Ordinary) :
    Making (conducts.quietly host) (fun _ => True) (State.Always Sequence.Tidy) where
  toContract := tidy_contract ordinary
  creates always fresh := ⟨trivial, always.creates (.of_fresh fresh)⟩
  appends _ value := append_tidies value

theorem set_tidies (index value : Value) :
    Keeps (State.Always Sequence.Tidy) (Sequence.set list index value : Action Diary Unit) := by
  intro before always
  refine Sequence.requireLive_bind always fun held there _ => ?_
  refine ((requireSlot_inside there index).imp (fun _ _ told => told) fun _ _ same =>
    same ▸ always).bind fun slot after told => ?_
  obtain ⟨rfl, inside⟩ := told
  refine always.edits fun now found tidy => ?_
  cases there.symm.trans found
  exact tidy.write inside value

end Tidying

section Rearranging

def State.Rearranging (list : Handle Sequence) (held : Sequence) (early : List Containers)
    (state : State Diary) : Prop :=
  state.Always Sequence.Tidy ∧ state.Holds list held.Stirred early

variable {early : List Containers}

theorem State.Rearranging.change {step : Sequence → Sequence}
    (stirs : ∀ now, held.Stirred now → held.Stirred (step now))
    (tidies : ∀ now, held.Stirred now → now.Tidy → (step now).Tidy) :
    Keeps (State.Rearranging list held early) (Sequence.change list step) := by
  rintro before ⟨always, holds⟩
  refine ⟨always.edits fun now there tidy => ?_, State.Holds.change stirs before holds⟩
  obtain ⟨⟨current, found, stirred⟩, _⟩ := holds
  cases there.symm.trans found
  exact tidies now stirred tidy

theorem State.Rearranging.note : Keeps (State.Rearranging list held early) noteMoment :=
  fun before kept => ⟨State.Always.note before kept.1, State.Holds.note before kept.2⟩

theorem rearranging_contract (ordinary : host.Ordinary) :
    Contract (conducts.quietly host) (State.Rearranging list held early) :=
  quietly_contract ordinary (fun _ kept => kept) State.Rearranging.note fun _ _ _ kept => kept

theorem rearranging_exchanges (ordinary : host.Ordinary) (draws : conducts.DrawsInside)
    (steady : held.Steady) :
    Exchanges (conducts.quietly host) list held
      (fun number => (∀ slot, Position.ofNumber number = .slot slot → slot < held.length) ∧
        ((∀ slot, Position.ofNumber number ≠ .slot slot) → 1 <<< 32 ≤ held.length))
      (State.Rearranging list held early) where
  toContract := rearranging_contract ordinary
  shows := by
    rintro state ⟨_, ⟨now, there, stirred⟩, _⟩
    exact ⟨now, there, stirred.length, stirred.reportedLength_eq⟩
  draws source kept nonempty := by
    refine quietly_draws (fun _ kept => kept) State.Rearranging.note (fun call drawn outcome => ?_) kept
    by_cases short : held.length < 1 <<< 32
    next =>
      have counts := Sequence.reportedLength_counts steady.zero short
      obtain ⟨length, exact⟩ := Nat.exists_eq_succ_of_ne_zero (Nat.ne_zero_of_lt nonempty)
      rw [exact] at counts
      obtain ⟨slot, names, below⟩ := draws call source _ drawn length outcome counts
      have named := drawn.position_eq_slot.2 ⟨names, by omega⟩
      refine ⟨fun other same => ?_, fun unnamed => absurd named (unnamed slot)⟩
      cases named.symm.trans same
      omega
    next =>
      -- Wherever a number points to past the slots of such a long list is no slot.
      refine ⟨fun slot named => ?_, fun _ => Nat.le_of_not_lt short⟩
      have small := (drawn.position_eq_slot.1 named).2
      omega
  inside told named := told.1 _ named
  writes inside value := State.Rearranging.change (fun _ stirred => stirred.write inside value)
    fun _ stirred tidy => tidy.write (stirred.length ▸ inside) value
  puts told unnamed value := State.Rearranging.change (fun _ stirred => stirred.putAside _ value)
    fun _ stirred tidy =>
      tidy.putAside (Nat.le_trans (stirred.length ▸ told.2 unnamed) tidy.storage.room) _ value
  assigns parent number value kept :=
    (ordinary.assigns parent number value _).imp (fun _ _ told => ⟨told.1, told.2 ▸ kept⟩)
      fun _ _ same => same ▸ kept

def Operation.rearranged? : Operation → Option (Handle Sequence)
  | .reverse list | .sort list _ | .shuffle list => some list
  | _ => none

theorem perform_rearranges (ordinary : host.Ordinary) (draws : conducts.DrawsInside)
    (there : before.containers.lists.cell? list = some held) (live : held.destroyed = false)
    (steady : before.containers.Steady) (always : before.Always Sequence.Tidy) {operation : Operation}
    (rearranges : operation.rearranged? = some list) :
    Ends (perform (conducts.quietly host) operation) before
      (fun _ => State.Rearranging list held before.outside.moments)
      fun _ => State.Rearranging list held before.outside.moments := by
  have steady := steady list held there
  have room := steady.covers.room
  have start : before.Rearranging list held before.outside.moments :=
    ⟨always, .start there ⟨.refl room, rfl, rfl, live⟩⟩
  cases operation with
  | reverse other =>
    cases rearranges
    have turns : Keeps (State.Rearranging list held before.outside.moments)
        (Sequence.change list Sequence.turn) :=
      State.Rearranging.change (fun _ stirred => stirred.turn) fun _ _ tidy => tidy.turn
    exact (((Keeps.requireLive list .reverse).bind fun _ => turns).bind fun _ => .of_pure _) before start
  | sort other comparator =>
    cases rearranges
    refine (sort_overwrites ordinary comparator there steady live (rearranging_contract ordinary) start
      fun values whole => ?_).bind fun _ _ kept => kept
    exact State.Rearranging.change (fun _ stirred => stirred.overwrite (whole ▸ room))
      fun _ stirred tidy => tidy.overwrite (Nat.le_of_eq (whole.trans stirred.length.symm))
  | shuffle other =>
    cases rearranges
    exact ((rearranging_exchanges ordinary draws steady).shuffle there live start).bind
      fun _ _ kept => kept
  | _ => cases rearranges

end Rearranging

theorem perform_tidies (ordinary : host.Ordinary) (draws : conducts.DrawsInside)
    (steady : before.containers.Steady) (always : before.Always Sequence.Tidy) (operation : Operation) :
    Ends (perform (conducts.quietly host) operation) before (fun _ => State.Always Sequence.Tidy)
      fun _ => State.Always Sequence.Tidy := by
  have walks : Walks (State.Always Sequence.Tidy) := .of_any fun _ _ always => always.becomes always.now rfl
  have sets : IgnoresSets (State.Always Sequence.Tidy) := fun _ _ always => always.becomes always.now rfl
  have cursors : IgnoresCursors (State.Always Sequence.Tidy) :=
    fun _ _ always => always.becomes always.now rfl
  have destructs (destructor : String) (value : Value) :
      Keeps (State.Always Sequence.Tidy) ((conducts.quietly host).destruct destructor value) :=
    destruct_keeps (fun _ always => always) (fun _ _ _ always => always) (fun _ => State.Always.note)
      destructor value
  cases edits : operation.edited? with
  | none =>
    cases makes : operation.makesList with
    | true => exact (tidy_making ordinary).perform_makes walks makes before always
    | false =>
      exact (tidy_contract ordinary).perform_looks walks edits makes (fun _ => sets) (fun _ => destructs)
        (cursors.move_keeps _) before always
  | some list =>
    cases lives : (before.containers.lists.get list).destroyed with
    | true =>
      obtain ⟨guard, guards⟩ := operation.guarded_of_edited edits
      have refused : Refused (perform (conducts.quietly host) operation) before guard :=
        perform_refused lives _ guards
      unfold Ends
      rwa [refused]
    | false =>
      have there := Sequence.there_of_live lives
      have rearranges (rearranges : operation.rearranged? = some list) :=
        (perform_rearranges ordinary draws there lives steady always rearranges).imp
          (fun _ _ kept => kept.1) fun _ _ kept => kept.1
      cases operation with
      | set other index value =>
        cases edits
        exact ((set_tidies index value).bind fun _ => .of_pure _) before always
      | append other value =>
        cases edits
        exact ((append_tidies value).bind fun _ => .of_pure _) before always
      | appendAll other source =>
        cases edits
        exact (((tidy_making ordinary).appendAll trivial source).bind fun _ => .of_pure _) before always
      | sort | shuffle => exact rearranges edits
      | _ =>
        exact (tidy_trimming ordinary).perform_trims edits rfl trivial (fun _ => sets)
          (fun _ => destructs) before always

section GivingBack

def Operation.takesFrom? : Operation → Option (Handle Sequence)
  | .remove list _ | .removeFirst list | .pop list | .removeItem list _ => some list
  | _ => none

/-- What an operation that takes out an element answers, and the elements that it leaves. -/
inductive GivesBack (elements : List Value) : Operation → Operation.Answer → List Value → Prop where
  | item {operation : Operation} {slot : Nat} {element : Value} (held : elements[slot]? = some element) :
      GivesBack elements operation (.item element) (elements.eraseIdx slot)
  | found {list : Handle Sequence} {value element : Value} {slot : Nat}
      (held : elements[slot]? = some element) (same : element.identical value) :
      GivesBack elements (.removeItem list value) (.flag true) (elements.eraseIdx slot)
  | missing {list : Handle Sequence} {value : Value}
      (differ : ∀ element ∈ elements, element.identical value = false) :
      GivesBack elements (.removeItem list value) (.flag false) elements

namespace Sequence

theorem elements_shiftOut {slot : Nat} (inside : slot < held.length) :
    (held.shiftOut slot).elements = held.elements.eraseIdx slot :=
  held.storage.valuesFrom_shiftOut inside

theorem takeOut_gives (there : before.containers.lists.cell? list = some held) {slot : Nat}
    (inside : slot < held.length) :
    Succeeds (takeOut list slot) before fun element after => held.elements[slot]? = some element ∧
      ∃ now, after.containers.lists.cell? list = some now ∧
        now.elements = held.elements.eraseIdx slot := by
  refine ⟨_, _, rfl, ?_, held.shiftOut slot, ?_, elements_shiftOut inside⟩
  · rw [Table.get_of_cell? there]
    simp [elements, Storage.valuesFrom, inside]
  · dsimp only
    rw [Table.cell?_modify, if_pos rfl, there]
    rfl

theorem remove_gives (there : before.containers.lists.cell? list = some held) (index : Value) :
    Ends (remove list index) before (fun element after => ∃ slot, held.elements[slot]? = some element ∧
      ∃ now, after.containers.lists.cell? list = some now ∧
        now.elements = held.elements.eraseIdx slot) fun _ _ => True := by
  refine requireLive_bind trivial fun _ _ _ => ?_
  refine ((requireSlot_inside there index).imp (fun _ _ told => told) fun _ _ _ => trivial).bind
    fun slot after told => ?_
  obtain ⟨rfl, inside⟩ := told
  exact ((takeOut_gives there inside).imp fun _ _ told => ⟨slot, told⟩).ends

theorem pop_gives (there : before.containers.lists.cell? list = some held) :
    Ends (pop list) before (fun element after => ∃ slot, held.elements[slot]? = some element ∧
      ∃ now, after.containers.lists.cell? list = some now ∧
        now.elements = held.elements.eraseIdx slot) fun _ _ => True := by
  have checks : Ends (requireElement list .pop) before
      (fun _ after => after = before ∧ 0 < held.length) fun _ _ => True := by
    refine requireLive_bind trivial fun _ _ _ => Ends.bind_eq (state_eq there) ?_
    split
    next => trivial
    next nonempty => exact ⟨rfl, Nat.pos_of_ne_zero nonempty⟩
  refine checks.bind fun _ after told => ?_
  obtain ⟨rfl, nonempty⟩ := told
  apply Ends.bind_eq (state_eq there)
  exact ((takeOut_gives there (Nat.sub_one_lt_of_lt nonempty)).imp fun _ _ told => ⟨_, told⟩).ends

theorem removeItem_gives (there : before.containers.lists.cell? list = some held) (value : Value) :
    Ends (removeItem list value) before (fun found after =>
      ∃ now, after.containers.lists.cell? list = some now ∧
        GivesBack held.elements (.removeItem list value) (.flag found) now.elements)
      fun _ _ => True := by
  have looks : Ends (indexOf list value) before (fun found after =>
      after = before ∧ found = held.find? value) fun _ _ => True := by
    refine requireLive_bind trivial fun _ _ _ => Ends.bind_eq (state_eq there) ?_
    exact ⟨rfl, rfl⟩
  refine looks.bind fun found after told => ?_
  obtain ⟨rfl, found⟩ := told
  subst found
  cases places : held.find? value with
  | none => exact ⟨held, there, .missing (List.findIdx?_eq_none_iff.1 places)⟩
  | some slot =>
    obtain ⟨inside, same, _⟩ := List.findIdx?_eq_some_iff_getElem.1 places
    have within : slot < held.length := by simpa [elements, Storage.valuesFrom] using inside
    refine (takeOut_gives there within).ends.bind fun element after told => ?_
    obtain ⟨element, now, found, left⟩ := told
    exact ⟨now, found, left ▸ .found (List.getElem?_eq_getElem inside) same⟩

end Sequence

theorem perform_gives (surroundings : Surroundings Diary)
    (there : before.containers.lists.cell? list = some held) {operation : Operation}
    (takes : operation.takesFrom? = some list) :
    Ends (perform surroundings operation) before (fun answer after =>
      ∃ now, after.containers.lists.cell? list = some now ∧
        GivesBack held.elements operation answer now.elements) fun _ _ => True := by
  have gives {action : Action Diary Value} (given : Ends action before (fun element after =>
      ∃ slot, held.elements[slot]? = some element ∧ ∃ now,
        after.containers.lists.cell? list = some now ∧ now.elements = held.elements.eraseIdx slot)
        fun _ _ => True) :
      Ends (action >>= fun element => pure (.item element)) before (fun answer after =>
        ∃ now, after.containers.lists.cell? list = some now ∧
          GivesBack held.elements operation answer now.elements) fun _ _ => True := by
    refine given.bind fun element after told => ?_
    obtain ⟨slot, inside, now, found, left⟩ := told
    exact ⟨now, found, left ▸ .item inside⟩
  cases operation with
  | remove other index | removeFirst other =>
    cases takes
    exact gives (Sequence.remove_gives there _)
  | pop other =>
    cases takes
    exact gives (Sequence.pop_gives there)
  | removeItem other value =>
    cases takes
    exact (Sequence.removeItem_gives there value).bind fun _ _ told => told
  | _ => cases takes

end GivingBack

section Confining

/-- There is as much room as before, and where no element is, nothing has been written. -/
structure Sequence.Confined (held now : Sequence) : Prop where
  length : now.length = held.length
  capacity : now.capacity = held.capacity
  spare : ∀ slot, held.length ≤ slot → now.storage.assigned? slot = held.storage.assigned? slot

theorem State.Holds.and_always {fits others : Sequence → Prop} {early : List Containers}
    {state : State Diary} (holds : state.Holds list fits early) (always : state.Always others) :
    state.Holds list (fun now => fits now ∧ others now) early := by
  obtain ⟨⟨now, there, suits⟩, since, moments, were⟩ := holds
  refine ⟨⟨now, there, suits, always.now list now there⟩, since, moments, fun moment member => ?_⟩
  obtain ⟨was, found, suits⟩ := were moment member
  have noted : moment ∈ state.outside.moments := moments ▸ List.mem_append_right early member
  exact ⟨was, found, suits, always moment (List.mem_append_left _ noted) list was found⟩

theorem Sequence.Tidy.confined {now : Sequence} (tidy : held.Tidy) (stirred : held.Stirred now)
    (tidied : now.Tidy) : held.Confined now where
  length := stirred.length
  capacity := (stirred.settles.live stirred.live).1
  spare slot past := by
    have unassigned {list : Sequence} (tidy : list.Tidy) (past : list.length ≤ slot) :
        list.storage.assigned? slot = none := by
      simpa using mt (tidy.storage.assigned slot).1 (Nat.not_lt_of_le past)
    rw [unassigned tidy past, unassigned tidied (stirred.length.symm ▸ past)]

theorem perform_confines (ordinary : host.Ordinary) (draws : conducts.DrawsInside)
    (there : before.containers.lists.cell? list = some held) (steady : before.containers.Steady)
    (always : before.Always Sequence.Tidy) {operation : Operation}
    (rearranges : operation.rearranged? = some list) :
    Ends (perform (conducts.quietly host) operation) before
      (fun _ => State.Holds list held.Confined before.outside.moments)
      fun _ => State.Holds list held.Confined before.outside.moments := by
  cases destroyed : held.destroyed with
  | true => exact perform_dead ordinary there destroyed ⟨rfl, rfl, fun _ _ => rfl⟩ operation
  | false =>
    have confined {state : State Diary} (kept : state.Rearranging list held before.outside.moments) :
        state.Holds list held.Confined before.outside.moments :=
      (kept.2.and_always kept.1).imp fun _ told => (always.now list held there).confined told.1 told.2
    exact (perform_rearranges ordinary draws there destroyed steady always rearranges).imp
      (fun _ _ => confined) fun _ _ => confined

end Confining

theorem perform_stays_tidy (ordinary : host.Ordinary) (draws : conducts.DrawsInside)
    (operation : Operation) :
    Keeps (fun state => Lasting state ∧ state.Always Sequence.Tidy)
      (perform (conducts.quietly host) operation) := by
  rintro before ⟨lasting, always⟩
  have lasts : Keeps Lasting (perform (conducts.quietly host) operation) :=
    perform_lasts ordinary (fun _ => Lasting.note) operation
  exact (lasts before lasting).and (perform_tidies ordinary draws lasting.now always operation)

theorem noteMoment_stays_tidy :
    Keeps (fun state => Lasting state ∧ state.Always Sequence.Tidy) noteMoment :=
  fun before kept => ⟨Lasting.note before kept.1, State.Always.note before kept.2⟩

/--
In a run whose callbacks only answer or fail, and whose draws are natural numbers below the lengths they
are asked for, all lists refer to their elements and to nothing else, at every moment. An element that is
given back is one that the list has no longer. To reverse, sort or shuffle a list, whether it succeeds or
not, writes nowhere but to the slots of elements.
-/
theorem lists_refer_to_elements_only (ordinary : host.Ordinary) (draws : conducts.DrawsInside)
    (script : List Operation) :
    let surroundings := conducts.quietly host
    (∀ moment ∈ (conducts.quietFinal host script).outside.moments,
        moment.Every Sequence.RefersToElements) ∧
      ∀ step ∈ stepsOf surroundings script { outside := {} }, ∀ list was,
        step.before.containers.lists.cell? list = some was →
          (step.operation.takesFrom? = some list → ∀ answer, step.outcome = .ok answer →
            ∃ now, (step.after surroundings).containers.lists.cell? list = some now ∧
              now.RefersToElements ∧ GivesBack was.elements step.operation answer now.elements) ∧
          (step.operation.rearranged? = some list →
            (step.after surroundings).Holds list was.Confined step.before.outside.moments) := by
  intro surroundings
  have performs (operation : Operation) :
      Keeps (fun state => Lasting state ∧ state.Always Sequence.Tidy) (perform surroundings operation) :=
    perform_stays_tidy ordinary draws operation
  refine ⟨fun moment member list held there => ?_, fun step member list was there => ?_⟩
  next =>
    have final := runScript_keeps noteMoment_stays_tidy (fun operation (_ : operation ∈ script) =>
      performs operation) { outside := {} } ⟨.start, .start⟩
    have tidy := final.leaves.2 moment (List.mem_append_left _ member) list held there
    exact tidy.refersToElements
  next =>
    obtain ⟨lasting, always⟩ := stepsOf_keeps noteMoment_stays_tidy performs ⟨.start, .start⟩ member
    refine ⟨fun takes answer answered => ?_, fun rearranges => ?_⟩
    next =>
      have answered : (attempt (perform surroundings step.operation) step.before).1.toOption =
          some answer := by
        rw [← outcome_of_mem member, answered]
        rfl
      have given := (perform_gives surroundings there takes).answered answered
      obtain ⟨now, found, gives⟩ := given
      have after := (performs step.operation step.before ⟨lasting, always⟩).leaves.2
      exact ⟨now, found, (after.now list now found).refersToElements, gives⟩
    next =>
      exact (perform_confines ordinary draws there lasting.now always rearranges).leaves

theorem lists_refer_to_elements_only_while_emptied :
    let host := Callbacks.plain Diary fun _ => compareOn Value.rank
    let first : Conducts := { Conducts.still with draw := fun _ _ _ _ => { outcome := .ok (.zero false) } }
    let surroundings := first.quietly host
    let script : List Operation := [.listOf [.integer 1, .integer 2, .integer 3] {}, .reverse ⟨0⟩,
      .removeFirst ⟨0⟩, .removeItem ⟨0⟩ (.integer 1), .pop ⟨0⟩, .destroy ⟨0⟩]
    let moments := (first.quietFinal host script).outside.moments
    let steps := stepsOf surroundings script { outside := {} }
    let shown (slots : List (Option Int)) := [slots.map (·.map Value.integer)]
    moments.map (fun moment => moment.lists.cells.toList.map (·.storage.slots.toList)) =
        [[], shown [some 1, some 2, some 3, none, none], shown [some 3, some 2, some 1, none, none],
          shown [some 2, some 1, none, none, none], shown [some 2, none, none, none, none],
          shown [none, none, none, none, none], shown []] ∧
      (∀ moment ∈ moments, moment.Every Sequence.RefersToElements) ∧
      (∃ step ∈ steps, ∃ was : Sequence, step.operation.rearranged? = some ⟨0⟩ ∧ was.length = 3 ∧
        (step.after surroundings).Holds ⟨0⟩ was.Confined step.before.outside.moments) ∧
      ∃ step ∈ steps, ∃ answer now, step.operation.takesFrom? = some ⟨0⟩ ∧ step.outcome = .ok answer ∧
        (step.after surroundings).containers.lists.cell? ⟨0⟩ = some now ∧ now.RefersToElements ∧
          GivesBack [.integer 3, .integer 2, .integer 1] step.operation answer now.elements := by
  intro host first surroundings script moments steps shown
  have ordinary : host.Ordinary := Callbacks.plain_ordinary Diary _
  have draws : first.DrawsInside := by
    rintro call source upper drawn length ⟨⟩ _
    exact ⟨0, rfl, Nat.zero_le _⟩
  have turns : (steps[1]?.map fun step => (step.operation.rearranged?,
      (step.before.containers.lists.cell? ⟨0⟩).map Sequence.length)) = some (some ⟨0⟩, some 3) := by
    decide +kernel
  have removes : (steps[2]?.map fun step => (step.operation.takesFrom?, step.outcome.toOption.isSome,
      (step.before.containers.lists.cell? ⟨0⟩).map Sequence.elements)) =
        some (some ⟨0⟩, true, some [.integer 3, .integer 2, .integer 1]) := by
    decide +kernel
  obtain ⟨every, stepwise⟩ := lists_refer_to_elements_only ordinary draws script
  refine ⟨by decide +kernel, every, ?_, ?_⟩
  next =>
    obtain ⟨step, second, told⟩ := Option.map_eq_some_iff.1 turns
    obtain ⟨rearranges, told⟩ := Prod.mk.inj told
    obtain ⟨was, there, length⟩ := Option.map_eq_some_iff.1 told
    have member := List.mem_of_getElem? second
    exact ⟨step, member, was, rearranges, length, (stepwise step member _ was there).2 rearranges⟩
  next =>
    obtain ⟨step, third, told⟩ := Option.map_eq_some_iff.1 removes
    obtain ⟨takes, told⟩ := Prod.mk.inj told
    obtain ⟨answers, told⟩ := Prod.mk.inj told
    obtain ⟨was, there, elements⟩ := Option.map_eq_some_iff.1 told
    have member := List.mem_of_getElem? third
    cases answered : step.outcome with
    | error failure =>
      rw [answered] at answers
      cases answers
    | ok answer =>
      have given := (stepwise step member _ was there).1 takes answer answered
      obtain ⟨now, found, refers, gives⟩ := given
      exact ⟨step, member, answer, now, takes, answered, found, refers, elements ▸ gives⟩

end Collections
