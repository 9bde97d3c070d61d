import Collections.Proofs.Sequence.Shuffling

set_option autoImplicit false

namespace Collections

open Sequence

variable {host : Callbacks Diary} {source : Option SourceId} {count : Nat} {dealt : List Nat}

def Conducts.dealing (dealt : List Nat) : Conducts :=
  { Conducts.still with
    draw := fun call _ _ _ => { outcome :=
      match dealt[call]? with
      | some slot => .ok (.ofNat slot)
      | none => .error (.thrown "dry") } }

theorem dealing_draw (host : Callbacks Diary) (dealt : List Nat) (source : Option SourceId)
    (lower upper : Number) (before : State Diary) :
    Ends (((Conducts.dealing dealt).quietly host).draw source lower upper) before
      (fun drawn after => after.containers = before.containers ∧
        after.outside.calls = before.outside.calls + 1 ∧
          ∃ slot, dealt[before.outside.calls]? = some slot ∧ drawn = .ofNumber (.ofNat slot))
      fun failure after => after.containers = before.containers ∧
        dealt[before.outside.calls]? = none ∧ failure = .thrown "dry" := by
  have answers : Ends (act (fun _ => noteMoment) ((Conducts.dealing dealt).draw · source lower upper))
      before (fun drawn after => after.containers = before.containers ∧
        after.outside.calls = before.outside.calls + 1 ∧
          ∃ slot, dealt[before.outside.calls]? = some slot ∧ drawn = .ofNat slot)
      (fun failure after => after.containers = before.containers ∧
        dealt[before.outside.calls]? = none ∧ failure = .thrown "dry") := by
    apply Ends.bind_eq rfl
    apply Ends.bind_eq rfl
    dsimp only [Conducts.dealing]
    cases next : dealt[before.outside.calls]? with
    | some slot => exact ⟨rfl, rfl, slot, rfl, rfl⟩
    | none => exact ⟨rfl, rfl, rfl⟩
  refine answers.bind fun drawn after told => ?_
  obtain ⟨same, counted, slot, next, rfl⟩ := told
  exact ⟨same, counted, slot, next, rfl⟩

theorem dealing_drawsSlots (small : count < 1 <<< 32) (within : ∀ slot ∈ dealt, slot < count) :
    ((Conducts.dealing dealt).quietly host).DrawsSlots source count := by
  intro before
  refine (dealing_draw host dealt source _ _ before).imp (fun drawn after told => ?_) fun _ _ told => told.1
  obtain ⟨same, _, slot, next, rfl⟩ := told
  have below := within slot (List.mem_of_getElem? next)
  exact ⟨same, _, slot, rfl, Number.toNat?_ofNat (by omega), below⟩

theorem dealing_deals (small : ∀ slot ∈ dealt, slot < 1 <<< 32) :
    ((Conducts.dealing dealt).quietly host).Deals source count fun diary => dealt.drop diary.calls := by
  intro before slot later next
  have first : dealt[before.outside.calls]? = some slot := by
    rw [← List.head?_drop]
    exact congrArg List.head? next
  refine Ends.succeeds ((dealing_draw host dealt source _ _ before).imp (fun drawn after told => ?_) ?_)
  · obtain ⟨same, counted, _, here, rfl⟩ := told
    rw [first] at here
    cases here
    have small := small slot (List.mem_of_getElem? first)
    refine ⟨same, ?_, _, rfl, Number.toNat?_ofNat (Nat.lt_trans small (by decide))⟩
    dsimp only at next ⊢
    rw [counted, ← List.drop_drop, next]
    rfl
  · rintro _ _ ⟨_, none, _⟩
    rw [first] at none
    cases none

theorem Sequence.Shuffling.take_dealt {list : Handle Sequence} {held : Sequence} {before state : State Diary}
    {draws : List Nat} (fresh : before.outside.calls = 0)
    (small : ∀ slot ∈ dealt, slot < (1 <<< 32) - 1)
    (shuffling : Shuffling ((Conducts.dealing dealt).quietly host) list held before draws state) :
    state.outside.calls = draws.length ∧ dealt.take draws.length = draws := by
  induction shuffling with
  | start => exact ⟨fresh, rfl⟩
  | @exchanged draws ready drawn number slot earlier draw names ih =>
    obtain ⟨counted, first⟩ := ih
    have told := dealing_draw host dealt held.random (.zero false) (.ofNat held.length) ready
    unfold Ends at told
    rw [draw] at told
    obtain ⟨_, counts, next, there, same⟩ := told
    have small := small next (List.mem_of_getElem? there)
    rw [ofNumber_slot (Number.toNat?_ofNat (Nat.lt_trans small (by decide))) small] at same
    obtain rfl : slot = next := by
      by_cases inside : slot < (1 <<< 32) - 1
      · rw [ofNumber_slot names inside] at same
        cases same
        rfl
      · have inside : ¬slot < 4294967295 := inside
        simp [Draw.ofNumber, Position.ofNumber, names, Option.filter, inside] at same
    rw [counted] at counts there
    exact ⟨by simpa using counts, by simp [List.take_add_one, first, there]⟩

/--
A live list at any moment of a run, no longer than storages can be, is shuffled by one draw from the whole
list for each element in turn, unless a draw fails. Whether all are drawn or not, the list is then its
elements with those in turn and those drawn exchanged one after the other, and nothing else has changed.
-/
theorem shuffles_exchange_in_turn (ordinary : host.Ordinary) (conducts : Conducts) (depth : Nat)
    (script : List Operation) :
    ∀ moment ∈ (conducts.final host depth script).outside.moments, ∀ list held,
      moment.lists.cell? list = some held → held.destroyed = false → held.length < 1 <<< 32 →
        ∀ (Outside : Type) (surroundings : Surroundings Outside),
          surroundings.DrawsSlots held.random held.length →
            ∀ state : State Outside, state.containers = moment →
              Ends (perform surroundings (.shuffle list)) state
                (fun _ after => ∃ draws, draws.length = held.length ∧
                  Shuffling surroundings list held state draws after ∧
                    state.Shuffles list held draws after)
                (fun failure after => ∃ draws early, draws.length < held.length ∧
                  Shuffling surroundings list held state draws early ∧
                    surroundings.draw held.random (.zero false) (.ofNat held.length) early =
                        .error failure after ∧
                      state.Shuffles list held draws after) := by
  rintro moment member list held there live short Outside surroundings slots state rfl
  have lasting := final_lasts ordinary conducts depth script
  have steady := lasting.steady _ (List.mem_append_left _ member) list held there
  have exchanges := shuffle_exchanges slots.drawsWhile trivial steady short there live
  refine Ends.bind (exchanges.imp (fun _ _ told => told) ?_) fun _ after told => ?_
  · rintro failure after ⟨draws, early, fewer, _, shuffling, shuffles, broke⟩
    exact ⟨draws, early, fewer, shuffling, broke, shuffles⟩
  · obtain ⟨draws, whole, _, shuffling, shuffles⟩ := told
    exact ⟨draws, whole, shuffling, shuffles⟩

theorem shuffles_exchange_in_turn_until_dry :
    let host := Callbacks.plain Diary fun _ => compareOn Value.rank
    let surroundings := (Conducts.dealing [2, 0]).quietly host
    let moments := (Conducts.still.final host 1
      [.listOf [.integer 1, .integer 2, .integer 3, .integer 4] {}]).outside.moments
    (moments.drop 1).length = 1 ∧ ∀ moment ∈ moments.drop 1,
      let state : State Diary := { containers := moment, outside := {} }
      ∃ held early after shuffled, perform surroundings (.shuffle ⟨0⟩) state = .error (.thrown "dry") after ∧
        Shuffling surroundings ⟨0⟩ held state [2, 0] early ∧ held.ShuffledBy [2, 0] shuffled ∧
          after.containers.lists.cell? ⟨0⟩ = some shuffled ∧
            shuffled.elements = [.integer 2, .integer 3, .integer 1, .integer 4] := by
  intro host surroundings moments
  have facts : ∀ moment ∈ moments.drop 1,
      (moment.lists.cell? ⟨0⟩).map (fun held => (held.elements, held.length, held.destroyed)) =
        some ([.integer 1, .integer 2, .integer 3, .integer 4], 4, false) := by
    decide +kernel
  refine ⟨by decide +kernel, fun moment member => ?_⟩
  obtain ⟨held, there, same⟩ := Option.map_eq_some_iff.1 (facts moment member)
  simp only [Prod.mk.injEq] at same
  obtain ⟨elements, length, live⟩ := same
  have told := shuffles_exchange_in_turn (Callbacks.plain_ordinary Diary _) Conducts.still 1 _ moment
    (List.mem_of_mem_drop member) ⟨0⟩ held there live (by rw [length]; decide) Diary surroundings
    (dealing_drawsSlots (by rw [length]; decide) (by rw [length]; decide))
    { containers := moment, outside := {} } rfl
  rw [length] at told
  unfold Ends at told
  split at told
  next =>
    -- There are not as many draws dealt as there are elements.
    obtain ⟨draws, whole, shuffling, _⟩ := told
    have dealt := congrArg List.length (shuffling.take_dealt rfl (by decide)).2
    rw [List.length_take, whole] at dealt
    exact absurd dealt (by decide)
  next failure after ended =>
    obtain ⟨draws, early, _, shuffling, broke, shuffles⟩ := told
    obtain ⟨counted, dealt⟩ := shuffling.take_dealt rfl (by decide)
    have dry := dealing_draw host [2, 0] held.random (.zero false) (.ofNat 4) early
    unfold Ends at dry
    rw [broke, counted] at dry
    obtain ⟨_, none, rfl⟩ := dry
    rw [List.take_of_length_le (List.getElem?_eq_none_iff.1 none)] at dealt
    subst dealt
    obtain ⟨shuffled, _, rearranged, now⟩ := shuffles.cell there
    refine ⟨held, early, after, shuffled, ended, shuffling, rearranged, now, ?_⟩
    rw [rearranged.exchanged, elements]
    decide

/--
However the positions of a list are to be arranged, there are as many draws from the whole list for which
shuffling it brings its elements into that order.
-/
theorem shuffles_reach_every_arrangement (ordinary : host.Ordinary) (count : Nat)
    (arrangement : Equiv.Perm (Fin count)) :
    ∃ draws : List Nat, draws.length = count ∧ (∀ draw ∈ draws, draw < count) ∧
      ∀ (conducts : Conducts) (depth : Nat) (script : List Operation),
        ∀ moment ∈ (conducts.final host depth script).outside.moments, ∀ list held,
          moment.lists.cell? list = some held → held.destroyed = false → held.length = count →
            count < 1 <<< 32 → ∀ (Outside : Type) (surroundings : Surroundings Outside) upcoming,
              surroundings.Deals held.random count upcoming → ∀ state : State Outside,
                state.containers = moment → upcoming state.outside = draws →
                  Succeeds (perform surroundings (.shuffle list)) state fun _ after =>
                    ∃ shuffled, after.containers.lists.cell? list = some shuffled ∧
                      held.Rearranged shuffled ∧ ∀ position : Fin count,
                        shuffled.elements[position.val]? = held.elements[(arrangement position).val]? := by
  obtain ⟨draws, many, within, arranges⟩ := exists_exchangeEach_arranges (α := Value) arrangement
  refine ⟨draws, many, within, ?_⟩
  rintro conducts depth script moment member list held there live rfl short Outside surroundings upcoming
    deals state rfl coming
  have lasting := final_lasts ordinary conducts depth script
  have steady := lasting.steady _ (List.mem_append_left _ member) list held there
  have drawsWhile := deals.drawsWhile (Nat.le_of_eq many.symm) within
  refine Succeeds.bind (Ends.succeeds ((shuffle_exchanges drawsWhile coming steady short there live).imp
    (fun _ _ told => told) ?_)) fun _ after told => ?_
  · -- So long as there are elements, there are draws dealt that have not been drawn.
    rintro failure after ⟨earlier, early, fewer, ready, _, _, broke⟩
    cases next : upcoming early.outside with
    | nil =>
      rw [next, List.append_nil] at ready
      rw [ready] at fewer
      omega
    | cons slot later =>
      obtain ⟨_, _, answered, _⟩ := deals early slot later next
      rw [broke] at answered
      cases answered
  · obtain ⟨drawn, whole, ready, _, shuffles⟩ := told
    obtain ⟨shuffled, _, rearranged, now⟩ := shuffles.cell there
    obtain ⟨rfl, _⟩ := List.append_inj (ready.trans (List.append_nil _).symm) (whole.trans many.symm)
    refine Succeeds.of_pure ⟨shuffled, now, rearranged.toRearranged, fun position => ?_⟩
    rw [rearranged.exchanged]
    exact arranges held.elements held.length_elements position

theorem shuffles_reach_every_arrangement_rotated :
    let host := Callbacks.plain Diary fun _ => compareOn Value.rank
    let moments := (Conducts.still.final host 1
      [.listOf [.text "a", .text "b", .text "c"] {}]).outside.moments
    (moments.drop 1).length = 1 ∧ ∃ draws : List Nat, draws.length = 3 ∧ ∀ moment ∈ moments.drop 1,
      Succeeds (perform ((Conducts.dealing draws).quietly host) (.shuffle ⟨0⟩))
        { containers := moment, outside := {} } fun _ after =>
          ∃ shuffled, after.containers.lists.cell? ⟨0⟩ = some shuffled ∧
            shuffled.elements = [.text "b", .text "c", .text "a"] := by
  intro host moments
  have facts : ∀ moment ∈ moments.drop 1,
      (moment.lists.cell? ⟨0⟩).map (fun held => (held.elements, held.length, held.destroyed)) =
        some ([.text "a", .text "b", .text "c"], 3, false) := by
    decide +kernel
  obtain ⟨draws, many, within, arranges⟩ := shuffles_reach_every_arrangement
    (Callbacks.plain_ordinary Diary fun _ => compareOn Value.rank) 3 ((Equiv.swap 0 1).trans (Equiv.swap 0 2))
  refine ⟨by decide +kernel, draws, many, fun moment member => ?_⟩
  obtain ⟨held, there, same⟩ := Option.map_eq_some_iff.1 (facts moment member)
  simp only [Prod.mk.injEq] at same
  obtain ⟨elements, length, live⟩ := same
  have small : ∀ draw ∈ draws, draw < 1 <<< 32 := fun draw drawn =>
    Nat.lt_trans (within draw drawn) (by decide)
  refine (arranges Conducts.still 1 _ moment (List.mem_of_mem_drop member) ⟨0⟩ held there live length
    (by decide) Diary _ _ (dealing_deals small) { containers := moment, outside := {} } rfl rfl).imp ?_
  rintro _ after ⟨shuffled, now, rearranged, arranged⟩
  refine ⟨shuffled, now, ?_⟩
  have whole : shuffled.elements.length = 3 := by rw [rearranged.elements.length_eq, elements]; rfl
  rw [elements] at arranged
  refine List.ext_getElem? fun position => ?_
  match position with
  | 0 => exact arranged 0
  | 1 => exact arranged 1
  | 2 => exact arranged 2
  | _ + 3 => rw [List.getElem?_eq_none (by omega), List.getElem?_eq_none (by simp)]

end Collections
