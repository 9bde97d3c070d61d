import Collections.Proofs.Runs.Quiet
import Collections.Proofs.Sequence.Exchanging

set_option autoImplicit false

namespace Collections

variable {Outside : Type}

def Surroundings.DrawsWithin (surroundings : Surroundings Outside) : Prop :=
  ∀ source lower upper before, Ends (surroundings.draw source lower upper) before
    (fun drawn _ => ∃ number slot length, drawn = .ofNumber number ∧ number.toNat? = some slot ∧
      upper.toNat? = some length ∧ slot < length) fun _ _ => True

def Surroundings.DrawsSlots (surroundings : Surroundings Outside) (source : Option SourceId)
    (count : Nat) : Prop :=
  ∀ before, Ends (surroundings.draw source (.zero false) (.ofNat count)) before
    (fun drawn after => after.containers = before.containers ∧
      ∃ number slot, drawn = .ofNumber number ∧ number.toNat? = some slot ∧ slot < count)
    fun _ after => after.containers = before.containers

def Surroundings.DrawsWhile (surroundings : Surroundings Outside) (source : Option SourceId)
    (count : Nat) (ready : List Nat → Outside → Prop) : Prop :=
  ∀ draws before, draws.length < count → ready draws before.outside →
    Ends (surroundings.draw source (.zero false) (.ofNat count)) before
      (fun drawn after => after.containers = before.containers ∧
        ∃ number slot, drawn = .ofNumber number ∧ number.toNat? = some slot ∧ slot < count ∧
          ready (draws ++ [slot]) after.outside)
      fun _ after => after.containers = before.containers

theorem Surroundings.DrawsSlots.drawsWhile {surroundings : Surroundings Outside}
    {source : Option SourceId} {count : Nat} (slots : surroundings.DrawsSlots source count) :
    surroundings.DrawsWhile source count fun _ _ => True :=
  fun _ before _ _ => (slots before).imp
    (fun _ _ ⟨same, number, slot, drawn, names, below⟩ =>
      ⟨same, number, slot, drawn, names, below, trivial⟩) fun _ _ same => same

def Surroundings.Deals (surroundings : Surroundings Outside) (source : Option SourceId)
    (count : Nat) (upcoming : Outside → List Nat) : Prop :=
  ∀ before slot later, upcoming before.outside = slot :: later →
    Succeeds (surroundings.draw source (.zero false) (.ofNat count)) before fun drawn after =>
      after.containers = before.containers ∧ upcoming after.outside = later ∧
        ∃ number, drawn = .ofNumber number ∧ number.toNat? = some slot

theorem Surroundings.Deals.drawsWhile {surroundings : Surroundings Outside}
    {source : Option SourceId} {count : Nat} {upcoming : Outside → List Nat} {dealt : List Nat}
    (deals : surroundings.Deals source count upcoming) (enough : count ≤ dealt.length)
    (within : ∀ slot ∈ dealt, slot < count) :
    surroundings.DrawsWhile source count fun draws outside => draws ++ upcoming outside = dealt := by
  intro draws before more ready
  cases next : upcoming before.outside with
  | nil =>
    rw [next, List.append_nil] at ready
    rw [ready] at more
    omega
  | cons slot later =>
    rw [next] at ready
    refine Succeeds.ends ((deals before slot later next).imp ?_)
    rintro drawn after ⟨same, rfl, number, rfl, names⟩
    refine ⟨same, number, slot, rfl, names, within slot (ready ▸ by simp), ?_⟩
    exact (List.append_assoc ..).trans ready

structure State.Permutes (early : State Outside) (list : Handle Sequence) (held : Sequence)
    (late : State Outside) : Prop where
  cell : ∃ storage, late.containers.lists.cell? list = some { held with storage } ∧
    storage.capacity = held.capacity ∧ storage.Covers held.length ∧
      (storage.valuesFrom 0 held.length).Perm held.elements
  others : ∀ other, other ≠ list →
    late.containers.lists.cell? other = early.containers.lists.cell? other
  sets : late.containers.sets = early.containers.sets

def State.Shuffles (early : State Outside) (list : Handle Sequence) (held : Sequence)
    (draws : List Nat) (late : State Outside) : Prop :=
  ∃ shuffled, shuffled.Steady ∧ held.ShuffledBy draws shuffled ∧ late.containers =
    (early.withLists (early.containers.lists.modify list fun _ => shuffled)).containers

namespace Sequence

variable {surroundings : Surroundings Outside} {list : Handle Sequence} {held : Sequence}
  {before state : State Outside} {draws : List Nat}

theorem ofNumber_slot {number : Number} {slot : Nat} (names : number.toNat? = some slot)
    (inside : slot < (1 <<< 32) - 1) : Draw.ofNumber number = .position (.slot slot) := by
  have inside : slot < 4294967295 := inside
  simp [Draw.ofNumber, Position.ofNumber, names, Option.filter, inside]

theorem reportedLength_counts (zero : held.negativeZero = true → held.length = 0)
    (short : held.length < 1 <<< 32) : held.reportedLength.toNat? = some held.length := by
  unfold reportedLength
  split
  next negative =>
    rw [zero negative]
    decide
  next => exact Number.toNat?_ofNat (Nat.lt_trans short (by decide))

theorem reportedLength_ofNat (steady : held.Steady) (some : 0 < held.length) :
    held.reportedLength = .ofNat held.length := by
  unfold reportedLength
  split
  next negative =>
    rw [steady.zero negative] at some
    exact absurd some (Nat.lt_irrefl 0)
  next => rfl

theorem swap_eq (callbacks : Callbacks Outside) (there : state.containers.lists.cell? list = some held)
    (left right : Nat) :
    swap callbacks list left (.slot right) state =
      .ok () (state.withLists (state.containers.lists.modify list (·.swapSlots left right))) := by
  have read (slot : Nat) : readSlot list slot state = .ok (held.storage.read slot) state := by
    change EStateM.Result.ok ((state.containers.lists.get list).storage.read slot) state = _
    rw [Table.get_of_cell? there]
  refine (bind_ok (read left)).trans ((bind_ok (read right)).trans ?_)
  refine (bind_ok rfl).trans (congrArg (fun lists => EStateM.Result.ok () (state.withLists lists)) ?_)
  exact (Table.modify_modify ..).trans (Table.modify_congr there rfl)

inductive Shuffling (surroundings : Surroundings Outside) (list : Handle Sequence) (held : Sequence)
    (before : State Outside) : List Nat → State Outside → Prop where
  | start : Shuffling surroundings list held before [] before
  | exchanged {draws : List Nat} {ready drawn : State Outside} {number : Number} {slot : Nat}
      (earlier : Shuffling surroundings list held before draws ready)
      (draw : surroundings.draw held.random (.zero false) (.ofNat held.length) ready =
        .ok (.ofNumber number) drawn)
      (names : number.toNat? = some slot) :
      Shuffling surroundings list held before (draws ++ [slot]) (drawn.withLists
        (drawn.containers.lists.modify list (·.swapSlots draws.length slot)))

end Sequence

namespace State.Shuffles

open Sequence

variable {list : Handle Sequence} {held : Sequence} {before state : State Outside} {draws : List Nat}

theorem start (there : before.containers.lists.cell? list = some held) (steady : held.Steady) :
    before.Shuffles list held [] before :=
  ⟨held, steady, .start held, by simp [Table.modify_self there]⟩

theorem cell (there : before.containers.lists.cell? list = some held)
    (shuffles : before.Shuffles list held draws state) :
    ∃ shuffled, shuffled.Steady ∧ held.ShuffledBy draws shuffled ∧
      state.containers.lists.cell? list = some shuffled := by
  obtain ⟨shuffled, steady, shuffles, same⟩ := shuffles
  refine ⟨shuffled, steady, shuffles, ?_⟩
  rw [same]
  dsimp only
  rw [Table.cell?_modify, if_pos rfl, there]
  rfl

theorem of_containers_eq {late : State Outside} (shuffles : before.Shuffles list held draws state)
    (same : late.containers = state.containers) : before.Shuffles list held draws late := by
  obtain ⟨shuffled, steady, shuffles, was⟩ := shuffles
  exact ⟨shuffled, steady, shuffles, same.trans was⟩

theorem exchange (shuffles : before.Shuffles list held draws state) (turn : draws.length < held.length)
    {slot : Nat} (inside : slot < held.length) :
    before.Shuffles list held (draws ++ [slot]) (state.withLists
      (state.containers.lists.modify list (·.swapSlots draws.length slot))) := by
  obtain ⟨shuffled, steady, shuffles, same⟩ := shuffles
  refine ⟨shuffled.swapSlots draws.length slot, ?_, shuffles.exchange steady turn inside, ?_⟩
  · exact (Edit.written _ _).steady ((Edit.written _ _).steady steady)
  · dsimp only
    rw [same, Table.modify_modify]
    rfl

theorem permutes (there : before.containers.lists.cell? list = some held)
    (shuffles : before.Shuffles list held draws state) : before.Permutes list held state := by
  obtain ⟨shuffled, steady, rearranged, now⟩ := shuffles.cell there
  obtain ⟨_, _, _, same⟩ := shuffles
  have covers := steady.covers
  have permuted := rearranged.elements
  unfold elements at permuted
  rw [rearranged.length_eq] at covers permuted
  refine ⟨⟨shuffled.storage, ?_, rearranged.capacity, covers, permuted⟩, fun other differ => ?_, ?_⟩
  · rw [now]
    exact congrArg some rearranged.rest
  · rw [same]
    dsimp only
    rw [Table.cell?_modify, if_neg differ]
  · rw [same]

end State.Shuffles

namespace Sequence

variable {surroundings : Surroundings Outside} {list : Handle Sequence} {held : Sequence}
  {before : State Outside}

def Interrupted (surroundings : Surroundings Outside) (before : State Outside)
    (list : Handle Sequence) (held : Sequence) (failure : Failure) (after : State Outside) : Prop :=
  before.Permutes list held after ∧ ∃ source lower upper early late,
    surroundings.draw source lower upper early = .error failure late

theorem shuffle_exchanges {ready : List Nat → Outside → Prop}
    (slots : surroundings.DrawsWhile held.random held.length ready) (start : ready [] before.outside)
    (steady : held.Steady) (short : held.length < 1 <<< 32)
    (there : before.containers.lists.cell? list = some held) (live : held.destroyed = false) :
    Ends (shuffle surroundings.toCallbacks list) before
      (fun _ after => ∃ draws, draws.length = held.length ∧ ready draws after.outside ∧
        Shuffling surroundings list held before draws after ∧ before.Shuffles list held draws after)
      (fun failure after => ∃ draws early, draws.length < held.length ∧ ready draws early.outside ∧
        Shuffling surroundings list held before draws early ∧ before.Shuffles list held draws after ∧
          surroundings.draw held.random (.zero false) (.ofNat held.length) early =
            .error failure after) := by
  apply Ends.bind_eq (requireLive_eq there live .shuffle)
  let reached (position : Nat) (state : State Outside) := ∃ draws, draws.length = position ∧
    ready draws state.outside ∧ Shuffling surroundings list held before draws state ∧
      before.Shuffles list held draws state
  have measures (position : Nat) (early : State Outside) (told : reached position early) :
      (return (← state list).length : Action Outside Nat) early = .ok held.length early := by
    obtain ⟨draws, _, _, _, shuffles⟩ := told
    obtain ⟨shuffled, _, shuffles, now⟩ := shuffles.cell there
    exact (bind_ok (state_eq now)).trans (congrArg (EStateM.Result.ok · early) shuffles.length_eq)
  refine visitAll_ends surroundings.toCallbacks measures (fun position early inside told => ?_) before
    ⟨[], rfl, start, .start, .start there steady⟩
  obtain ⟨draws, rfl, more, shuffling, shuffles⟩ := told
  obtain ⟨shuffled, stays, rearranged, now⟩ := shuffles.cell there
  have length := rearranged.length_eq
  apply Ends.bind_eq (state_eq now)
  -- What the list was created with is as it was, so that it is the same source that draws.
  have source : shuffled.random = held.random := by rw [rearranged.rest]
  rw [reportedLength_ofNat stays (by omega), length, source]
  have drawing := slots draws early inside more
  unfold Ends at drawing
  cases answered : surroundings.draw held.random (.zero false) (.ofNat held.length) early with
  | error failure after =>
    rw [answered] at drawing
    unfold Ends
    rw [bind_error answered]
    exact ⟨draws, early, inside, more, shuffling, shuffles.of_containers_eq drawing, answered⟩
  | ok drawn after =>
    rw [answered] at drawing
    obtain ⟨same, number, slot, rfl, names, below, more⟩ := drawing
    apply Ends.bind_eq answered
    rw [ofNumber_slot names (Nat.lt_of_lt_of_le below (Nat.le_sub_one_of_lt short))]
    have swaps := swap_eq surroundings.toCallbacks (same ▸ now) draws.length slot
    exact Succeeds.ends ⟨(), _, swaps, draws ++ [slot], by simp, more,
      .exchanged shuffling answered names, (shuffles.of_containers_eq same).exchange inside below⟩

theorem shuffle_permutes (quiet : surroundings.Quiet) (within : surroundings.DrawsWithin)
    (steady : held.Steady) (short : held.length < 1 <<< 32)
    (there : before.containers.lists.cell? list = some held) (live : held.destroyed = false) :
    Ends (shuffle surroundings.toCallbacks list) before (fun _ => before.Permutes list held)
      (Interrupted surroundings before list held) := by
  have slots : surroundings.DrawsSlots held.random held.length := by
    intro early
    refine ((quiet.draws _ _ _ early).and (within _ _ _ early)).imp (fun drawn late told => ?_) ?_
    · obtain ⟨same, number, slot, length, rfl, names, counts, below⟩ := told
      rw [Number.toNat?_ofNat (Nat.lt_trans short (by decide))] at counts
      cases counts
      exact ⟨same.containers, number, slot, rfl, names, below⟩
    · exact fun _ _ told => told.1.containers
  refine (shuffle_exchanges slots.drawsWhile trivial steady short there live).imp ?_ ?_
  · exact fun _ _ ⟨_, _, _, _, shuffles⟩ => shuffles.permutes there
  · exact fun _ _ ⟨_, _, _, _, _, shuffles, broke⟩ => ⟨shuffles.permutes there, _, _, _, _, _, broke⟩

end Sequence

end Collections
