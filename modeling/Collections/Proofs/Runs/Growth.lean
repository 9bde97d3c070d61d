import Collections.Proofs.Runs.Settling
import Collections.Proofs.Runs.Teardown

set_option autoImplicit false

namespace Collections

variable {host : Callbacks Diary} {conducts : Conducts} {list : Handle Sequence} {held : Sequence}

section Building

def State.Building (made : Handle Sequence) (fresh : Sequence) (before state : State Diary) : Prop :=
  ∃ values, state.containers.lists.cell? made = some (values.foldl Sequence.extend fresh) ∧
    state.outside.notices = before.outside.notices ++ fresh.growths values ∧
      ∃ since, state.outside.moments = before.outside.moments ++ since ∧
        ∀ moment ∈ since, ∀ was, moment.lists.cell? made = some was →
          ∃ earlier, earlier <+: values ∧ was = earlier.foldl Sequence.extend fresh

variable {made : Handle Sequence} {fresh : Sequence} {before : State Diary}

theorem State.Building.start (there : before.containers.lists.cell? made = some fresh) :
    State.Building made fresh before before :=
  ⟨[], there, (List.append_nil _).symm, [], (List.append_nil _).symm, by simp⟩

theorem State.Building.note : Keeps (State.Building made fresh before) noteMoment := by
  rintro state ⟨values, there, notices, since, moments, were⟩
  refine ⟨values, there, notices, since ++ [state.containers], ?_, fun moment member was found => ?_⟩
  · change state.outside.moments ++ [state.containers] = _
    rw [moments, List.append_assoc]
  · rcases List.mem_append.1 member with earlier | last
    · exact were moment earlier was found
    · rw [List.mem_singleton.1 last, there] at found
      cases found
      exact ⟨values, List.prefix_rfl, rfl⟩

theorem tellAll_surroundings (run : List Operation → Action Diary Unit)
    (notices : List (String × Notice)) (diary : Diary) :
    Sequence.tellAll (conducts.surroundings host run).toCallbacks notices diary =
      { diary with notices := diary.notices ++ notices } := by
  induction notices generalizing diary with
  | nil => simp [Sequence.tellAll]
  | cons notice rest ih =>
    have told := ih { diary with notices := diary.notices ++ [notice] }
    rw [List.append_assoc] at told
    exact told

theorem growths_append (held : Sequence) (early late : List Value) :
    held.growths (early ++ late) = held.growths early ++ (early.foldl Sequence.extend held).growths late := by
  induction early generalizing held with
  | nil => rfl
  | cons value rest ih => simp [Sequence.growths, ih]

def Operation.firstCapacity : Operation → Nat
  | .nullList (.number length) _ => (length.toInt?.getD 0).toNat
  | _ => 0

structure Sequence.Created (fresh : Sequence) (count : Nat) : Prop where
  live : fresh.destroyed = false
  length : fresh.length = count
  capacity : fresh.capacity = count

theorem answers_list {Outside : Type} {action : Action Outside (Handle Sequence)} {before : State Outside}
    {wanted : Handle Sequence → State Outside → Prop}
    (made : Ends action before wanted fun _ _ => True) :
    Ends (action >>= fun made => pure (Operation.Answer.list made)) before
      (fun answer after => ∀ made, answer = .list made → wanted made after) fun _ _ => True := by
  refine made.bind fun made after told => ?_
  rintro _ ⟨⟩
  exact told

end Building

section Following

def Containers.lengthOf (moment : Containers) (list : Handle Sequence) : Nat :=
  (moment.lists.get list).length

def State.seen (state : State Diary) : List Containers := state.outside.moments ++ [state.containers]

structure State.Follows (created : Nat) (list : Handle Sequence) (appended : Nat)
    (told : List (String × Notice)) (held : Sequence) (growths : Nat) (state : State Diary) : Prop where
  capacity : held.capacity = stage created growths
  room : held.length ≤ held.capacity
  length : held.length ≤ created + appended
  told : told = growthsBetween held.logger created 0 growths
  bounds : ∀ moment ∈ state.seen, ∀ was, moment.lists.cell? list = some was →
    was.length ≤ created + appended ∧ was.length ≤ held.capacity
  needed : growths = 0 ∨ ∃ moment ∈ state.seen, stage created (growths - 1) < moment.lengthOf list

namespace State.Follows

variable {created appended growths : Nat} {told : List (String × Notice)} {before after : State Diary}

theorem mem_seen_of_moments (noted : before.containers ∈ before.outside.moments)
    {since : List Containers} (moments : after.outside.moments = before.outside.moments ++ since)
    {moment : Containers} (member : moment ∈ before.seen) : moment ∈ after.seen := by
  have earlier : moment ∈ before.outside.moments := by
    rcases List.mem_append.1 member with earlier | now
    · exact earlier
    · exact List.mem_singleton.1 now ▸ noted
  simp [seen, moments, earlier]

theorem mem_seen_noted {state : State Diary} {moment : Containers} :
    moment ∈ state.noted.seen ↔ moment ∈ state.seen := by
  simp [seen, State.noted]

theorem note (follows : before.Follows created list appended told held growths) :
    before.noted.Follows created list appended told held growths where
  capacity := follows.capacity
  room := follows.room
  length := follows.length
  told := follows.told
  bounds moment member := follows.bounds moment (mem_seen_noted.1 member)
  needed := follows.needed.imp_right fun ⟨moment, member, more⟩ =>
    ⟨moment, mem_seen_noted.2 member, more⟩

theorem start {fresh : Sequence} {count : Nat} (created : fresh.Created count)
    (absent : ∀ moment ∈ before.seen, moment.lists.cell? list = none) :
    before.Follows count list 0 [] fresh 0 where
  capacity := created.capacity.trans (stage_zero count).symm
  room := Nat.le_of_eq (created.length.trans created.capacity.symm)
  length := Nat.le_of_eq created.length
  told := by cases logger : fresh.logger <;> simp [growthsBetween]
  bounds moment member was found := by
    rw [absent moment member] at found
    cases found
  needed := .inl rfl

theorem settles (follows : before.Follows created list appended told held growths)
    (noted : before.containers ∈ before.outside.moments)
    (holds : after.Holds list held.Settles before.outside.moments) :
    ∃ now, after.containers.lists.cell? list = some now ∧
      (now.destroyed = false → after.Follows created list appended told now growths) := by
  obtain ⟨⟨now, there, settled⟩, since, moments, were⟩ := holds
  refine ⟨now, there, fun live => ?_⟩
  obtain ⟨capacity, logger⟩ := settled.live live
  -- While a step settles, the list never has more elements than it had before.
  have bounded {was : Sequence} (settles : held.Settles was) :
      was.length ≤ created + appended ∧ was.length ≤ now.capacity := by
    rw [capacity]
    exact ⟨Nat.le_trans settles.length follows.length, Nat.le_trans settles.length follows.room⟩
  refine ⟨capacity.trans follows.capacity, settled.room, (bounded settled).1, ?_, ?_, ?_⟩
  next =>
    rw [logger]
    exact follows.told
  next =>
    intro moment member was found
    simp only [seen, moments, List.mem_append, List.mem_singleton] at member
    rcases member with (earlier | later) | rfl
    · rw [capacity]
      exact follows.bounds moment (List.mem_append_left _ earlier) was found
    · obtain ⟨kept, same, settles⟩ := were moment later
      rw [found] at same
      cases same
      exact bounded settles
    · rw [found] at there
      cases there
      exact bounded settled
  next =>
    refine follows.needed.imp_right ?_
    rintro ⟨moment, member, needed⟩
    exact ⟨moment, mem_seen_of_moments noted moments member, needed⟩

variable (follows : before.Follows created list appended told held growths)

include follows

end State.Follows

end Following

def Operation.extended? : Operation → Option (Handle Sequence)
  | .append list _ | .appendAll list _ => some list
  | _ => none

namespace Step

variable (surroundings : Surroundings Diary) (list : Handle Sequence) (step : Step)

def after : State Diary := (attempt (perform surroundings step.operation) step.before).2

def made? : Option (Handle Sequence) :=
  match step.outcome with
  | .ok (.list made) => some made
  | _ => none

def appends : Bool := step.operation.extended? = some list || step.made? = some list

/-- How many more elements the list has than before, not counting those it was created with. -/
def added : Nat :=
  (step.after surroundings).containers.lengthOf list -
    (step.before.containers.lengthOf list + step.operation.firstCapacity)

def told : List (String × Notice) :=
  (step.after surroundings).outside.notices.drop step.before.outside.notices.length

variable {list step}

theorem answered_of_made (made : step.made? = some list) :
    step.outcome.toOption = some (.list list) := by
  unfold made? at made
  split at made <;> cases made
  next answered => rw [answered]; rfl

end Step

section Charting

section Contributing

variable (surroundings : Surroundings Diary) {step : Step}

end Contributing

def State.Charts (created : Nat) (list : Handle Sequence) (appended : Nat)
    (told : List (String × Notice)) (state : State Diary) : Prop :=
  ∃ held, state.containers.lists.cell? list = some held ∧
    (held.destroyed = false → ∃ growths, state.Follows created list appended told held growths)

variable {created appended growths : Nat} {told : List (String × Notice)} {before : State Diary}

theorem State.Charts.note (charts : before.Charts created list appended told) :
    before.noted.Charts created list appended told := by
  obtain ⟨held, there, follows⟩ := charts
  refine ⟨held, there, fun live => ?_⟩
  obtain ⟨growths, follows⟩ := follows live
  exact ⟨growths, follows.note⟩

section Making

end Making

theorem appends_stay_within (ordinary : host.Ordinary) (conducts : Conducts) (depth : Nat)
    (script : List Operation) :
    ∀ moment ∈ (conducts.final host depth script).outside.moments, ∀ {Outside : Type}
      (callbacks : Callbacks Outside) (state : State Outside) list held (values : List Value),
        state.containers = moment → moment.lists.cell? list = some held → held.destroyed = false →
          held.length + values.length + 1 < 1 <<< 31 →
            values.forM (Sequence.appendWithin callbacks list) state =
              values.forM (Sequence.append callbacks list) state := by
  rintro moment member Outside callbacks state list held values rfl there live short
  have always := (final_lasts ordinary conducts depth script).always
  have steady := always _ (List.mem_append_left _ member) list held there
  exact Sequence.appendEachWithin_eq there live steady.sound.room short

end Charting

end Collections
