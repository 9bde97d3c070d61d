import Collections.Proofs.OrderedSet.Halving
import Collections.Proofs.OrderedSet.History

set_option autoImplicit false

namespace Collections

variable {Outside : Type}

namespace Callbacks

def Answers (callbacks : Callbacks Outside) (comparator : Option ComparatorId) : Prop :=
  ∀ left right before, Succeeds (callbacks.reply comparator left right) before fun _ after =>
    after.containers = before.containers

def Records (callbacks : Callbacks Outside) (comparator : Option ComparatorId)
    (log : Outside → List (Value × Value)) : Prop :=
  ∀ left right before reply after, callbacks.reply comparator left right before = .ok reply after →
    log after.outside = log before.outside ++ [(left, right)]

end Callbacks

def State.withItems (state : State Outside) (set : Handle OrderedSet) (items : Array Value) :
    State Outside :=
  { state with containers :=
      { state.containers with sets := state.containers.sets.modify set ({ · with items }) } }

namespace OrderedSet

structure Probe where
  position : Nat
  item : Value
  reply : Reply

/-- The comparator was called for these items and a value, one after the other. -/
inductive Asked (callbacks : Callbacks Outside) (comparator : Option ComparatorId) (value : Value) :
    State Outside → List Probe → State Outside → Prop where
  | nothing {state : State Outside} : Asked callbacks comparator value state [] state
  | probe {before middle after : State Outside} {probe : Probe} {rest : List Probe}
      (answered : callbacks.reply comparator probe.item value before = .ok probe.reply middle)
      (later : Asked callbacks comparator value middle rest after) :
      Asked callbacks comparator value before (probe :: rest) after

section Asked

variable {callbacks : Callbacks Outside} {comparator : Option ComparatorId} {value : Value}
  {before middle after : State Outside} {early late : List Probe}

theorem Asked.append (first : Asked callbacks comparator value before early middle)
    (second : Asked callbacks comparator value middle late after) :
    Asked callbacks comparator value before (early ++ late) after := by
  induction first with
  | nothing => exact second
  | probe answered _ ih => exact .probe answered (ih second)

theorem Asked.untouched (answers : callbacks.Answers comparator)
    (asked : Asked callbacks comparator value before early after) :
    after.containers = before.containers := by
  induction asked with
  | nothing => rfl
  | @probe before _ _ probe _ answered _ ih =>
    obtain ⟨_, _, same, untouched⟩ := answers probe.item value before
    cases answered.symm.trans same
    exact ih.trans untouched

theorem Asked.recorded {log : Outside → List (Value × Value)}
    (records : callbacks.Records comparator log)
    (asked : Asked callbacks comparator value before early after) :
    log after.outside = log before.outside ++ early.map fun probe => (probe.item, value) := by
  induction asked with
  | nothing => simp
  | probe answered _ ih => simp [ih, records _ _ _ _ _ answered]

end Asked

structure Probed (callbacks : Callbacks Outside) (held : OrderedSet) (value : Value)
    (before : State Outside) (probes : List Probe) (after : State Outside) : Prop where
  asked : Asked callbacks held.comparator value before probes after
  stored : ∀ probe ∈ probes, held.items[probe.position]? = some probe.item

variable {callbacks : Callbacks Outside} {set : Handle OrderedSet} {held : OrderedSet}
  {value : Value} {before middle after : State Outside}

theorem Probed.nothing : Probed callbacks held value before [] before where
  asked := .nothing
  stored := by simp

theorem Probed.append {early late : List Probe}
    (first : Probed callbacks held value before early middle)
    (second : Probed callbacks held value middle late after) :
    Probed callbacks held value before (early ++ late) after where
  asked := first.asked.append second.asked
  stored := List.forall_mem_append.2 ⟨first.stored, second.stored⟩

theorem compareItem_probes (answers : callbacks.Answers held.comparator) (value : Value)
    {position : Nat} (inside : position < held.items.size)
    (there : before.containers.sets.cell? set = some held) :
    Succeeds (compareItem callbacks set position value) before fun reply after =>
      ∃ item, Probed callbacks held value before [⟨position, item, reply⟩] after := by
  apply Succeeds.bind_eq (state_eq there)
  obtain ⟨reply, after, answered, _⟩ := answers (held.item position) value before
  refine ⟨reply, after, answered, held.item position, .probe answered .nothing, ?_⟩
  simp [item, Array.getD, inside]

-- A window of less than `1 <<< rounds` positions is closed by so many comparisons inside it.
theorem search_probes (answers : callbacks.Answers held.comparator) (value : Value)
    (fits : held.items.size ≤ 1 <<< 31) (rounds : Nat) (window : Window)
    (narrow : window.width < 1 <<< rounds) (ordered : window.low ≤ held.items.size)
    (inside : window.high ≤ held.items.size)
    (there : before.containers.sets.cell? set = some held) :
    Succeeds (search callbacks set value window) before fun position after =>
      position ≤ held.items.size ∧ ∃ probes, probes.length ≤ rounds ∧
        Probed callbacks held value before probes after := by
  induction rounds generalizing window before with
  | zero =>
    have closed : ¬ window.low < window.high := by
      simp only [Window.width] at narrow
      omega
    rw [search.eq_def, if_neg closed]
    exact Succeeds.of_pure ⟨ordered, [], Nat.le_refl 0, .nothing⟩
  | succ rounds ih =>
    rw [search.eq_def]
    split
    next wide =>
      have halves := Window.halves wide inside fits
      have middleInside := Nat.lt_of_lt_of_le halves.narrows.2 inside
      have half {part : Nat} (smaller : 2 * part ≤ window.width) : part < 1 <<< rounds := by
        rw [Nat.shiftLeft_succ] at narrow
        omega
      rw [if_pos halves.narrows]
      refine (compareItem_probes answers value middleInside there).bind fun reply middle told => ?_
      obtain ⟨item, probed⟩ := told
      have there := probed.asked.untouched answers ▸ there
      have onwards (position : Nat) (after : State Outside) :
          (position ≤ held.items.size ∧ ∃ probes, probes.length ≤ rounds ∧
            Probed callbacks held value middle probes after) →
          position ≤ held.items.size ∧ ∃ probes, probes.length ≤ rounds + 1 ∧
            Probed callbacks held value before probes after := by
        rintro ⟨ordered, probes, few, later⟩
        exact ⟨ordered, _ :: probes, Nat.succ_le_succ few, probed.append later⟩
      split
      next =>
        exact (ih window.above (half halves.above) middleInside inside there).imp onwards
      next =>
        exact (ih window.below (half halves.below) ordered (Nat.le_of_lt middleInside) there).imp
          onwards
    next => exact Succeeds.of_pure ⟨ordered, [], Nat.zero_le _, .nothing⟩

/-- How often a set of so many items may have its comparator called to find a value. -/
def probesAllowed (size : Nat) : Nat := if size = 0 then 0 else size.log2 + 2

structure Lookup (callbacks : Callbacks Outside) (held : OrderedSet) (value : Value)
    (before : State Outside) (location : Location) (probes : List Probe) (after : State Outside) :
    Prop extends Probed callbacks held value before probes after where
  few : probes.length ≤ probesAllowed held.items.size
  recorded : ∀ log, callbacks.Records held.comparator log →
    log after.outside = log before.outside ++ probes.map fun probe => (probe.item, value)
  untouched : after.containers = before.containers
  inside : location.position ≤ held.items.size
  found : location.found = true ↔ ∃ probe, probes.getLast? = some probe ∧
    probe.position = location.position ∧ probe.reply.isEqual = true

theorem locate_looks_up (answers : callbacks.Answers held.comparator) (value : Value)
    (fits : held.items.size ≤ 1 <<< 31) (there : before.containers.sets.cell? set = some held) :
    Succeeds (locate callbacks set value) before fun location after =>
      ∃ probes, Lookup callbacks held value before location probes after := by
  let rounds := if held.items.size = 0 then 0 else held.items.size.log2 + 1
  have narrow : held.items.size < 1 <<< rounds := by
    unfold rounds
    split
    next empty => simp [empty]
    next =>
      rw [Nat.one_shiftLeft]
      exact Nat.lt_log2_self
  apply Succeeds.bind_eq (state_eq there)
  refine (search_probes answers value fits rounds ⟨0, held.items.size⟩ narrow (Nat.zero_le _)
    (Nat.le_refl _) there).bind fun position middle told => ?_
  obtain ⟨inside, probes, few, probed⟩ := told
  have untouched := probed.asked.untouched answers
  have there := untouched ▸ there
  apply Succeeds.bind_eq (state_eq there)
  split
  next short =>
    refine (compareItem_probes answers value short there).bind fun reply after told => ?_
    obtain ⟨item, last⟩ := told
    have whole := probed.append last
    refine Succeeds.of_pure ⟨_, whole, ?_, fun log records => whole.asked.recorded records,
      whole.asked.untouched answers, inside, by simp⟩
    have occupied : held.items.size ≠ 0 := by omega
    simp only [rounds, if_neg occupied] at few
    simp only [probesAllowed, if_neg occupied, List.length_append, List.length_singleton]
    omega
  next past =>
    refine Succeeds.of_pure ⟨probes, probed, ?_, fun log records => probed.asked.recorded records,
      untouched, inside, ?_⟩
    · unfold rounds at few
      unfold probesAllowed
      split at few <;> split <;> omega
    · refine iff_of_false (by simp) ?_
      rintro ⟨probe, last, same, _⟩
      have stored := probed.stored probe (List.mem_of_getLast? last)
      exact past (Nat.lt_of_le_of_lt (Nat.le_of_eq same.symm) (Array.getElem?_eq_some_iff.1 stored).1)

theorem contains_looks_up (answers : callbacks.Answers held.comparator) (value : Value)
    (fits : held.items.size ≤ 1 <<< 31) (there : before.containers.sets.cell? set = some held) :
    Succeeds (contains callbacks set value) before fun answer after => ∃ location probes,
      Lookup callbacks held value before location probes after ∧ answer = location.found := by
  refine (locate_looks_up answers value fits there).bind fun location after told => ?_
  obtain ⟨probes, lookup⟩ := told
  exact Succeeds.of_pure ⟨location, probes, lookup, rfl⟩

theorem find_looks_up (answers : callbacks.Answers held.comparator) (value : Value)
    (fits : held.items.size ≤ 1 <<< 31) (there : before.containers.sets.cell? set = some held) :
    Succeeds (find callbacks set value) before fun answer after => ∃ location probes,
      Lookup callbacks held value before location probes after ∧
        answer = if location.found then held.item location.position else .undefined := by
  refine (locate_looks_up answers value fits there).bind fun location after told => ?_
  obtain ⟨probes, lookup⟩ := told
  split
  next found =>
    apply Succeeds.bind_eq (state_eq (lookup.untouched ▸ there))
    exact Succeeds.of_pure ⟨location, probes, lookup, by rw [if_pos found]⟩
  next missing => exact Succeeds.of_pure ⟨location, probes, lookup, by rw [if_neg missing]⟩

inductive Inserts (callbacks : Callbacks Outside) (set : Handle OrderedSet) (held : OrderedSet)
    (value : Value) (before : State Outside) : Bool → State Outside → Prop where
  | kept {location : Location} {probes : List Probe} {after : State Outside}
      (lookup : Lookup callbacks held value before location probes after)
      (found : location.found = true) : Inserts callbacks set held value before false after
  | added {location : Location} {probes : List Probe} {middle : State Outside} {left right : List Value}
      (lookup : Lookup callbacks held value before location probes middle)
      (missing : location.found = false) (whole : held.items.toList = left ++ right)
      (position : left.length = location.position) :
      Inserts callbacks set held value before true
        (middle.withItems set (left ++ value :: right).toArray)

inductive Erases (callbacks : Callbacks Outside) (set : Handle OrderedSet) (held : OrderedSet)
    (value : Value) (before : State Outside) : Bool → State Outside → Prop where
  | kept {location : Location} {probes : List Probe} {after : State Outside}
      (lookup : Lookup callbacks held value before location probes after)
      (missing : location.found = false) : Erases callbacks set held value before false after
  | removed {location : Location} {probes : List Probe} {middle : State Outside} {item : Value}
      {reply : Reply} {left right : List Value}
      (lookup : Lookup callbacks held value before location probes middle)
      (last : probes.getLast? = some ⟨left.length, item, reply⟩) (equal : reply.isEqual = true)
      (whole : held.items.toList = left ++ item :: right) :
      Erases callbacks set held value before true (middle.withItems set (left ++ right).toArray)

theorem change_items {step : OrderedSet → OrderedSet} {items : List Value}
    (there : before.containers.sets.cell? set = some held)
    (same : step held = { held with items := items.toArray }) :
    change set step before = .ok () (before.withItems set items.toArray) := by
  have changed : before.containers.sets.modify set step =
      before.containers.sets.modify set ({ · with items := items.toArray }) :=
    Table.modify_congr there same
  change EStateM.Result.ok () _ = _
  simp only [State.withItems, changed]

theorem insert_inserts_once (answers : callbacks.Answers held.comparator) (value : Value)
    (fits : held.items.size ≤ 1 <<< 31) (there : before.containers.sets.cell? set = some held) :
    Succeeds (insert callbacks set value) before (Inserts callbacks set held value before) := by
  refine (locate_looks_up answers value fits there).bind fun location middle told => ?_
  obtain ⟨probes, lookup⟩ := told
  split
  next found => exact Succeeds.of_pure (.kept lookup found)
  next missing =>
    have there := lookup.untouched ▸ there
    have items := insertAt_items held value lookup.inside
    have same : held.insertAt location.position value = { held with
        items := (held.items.toList.take location.position ++
          value :: held.items.toList.drop location.position).toArray } := by
      rw [← items]
      rfl
    refine Succeeds.bind_eq (change_items there same) (Succeeds.of_pure ?_)
    exact .added lookup (by simpa using missing) (List.take_append_drop _ _).symm
      (List.length_take_of_le lookup.inside)

theorem erase_erases_one (answers : callbacks.Answers held.comparator) (value : Value)
    (fits : held.items.size ≤ 1 <<< 31) (there : before.containers.sets.cell? set = some held) :
    Succeeds (erase callbacks set value) before (Erases callbacks set held value before) := by
  refine (locate_looks_up answers value fits there).bind fun location middle told => ?_
  obtain ⟨probes, lookup⟩ := told
  split
  next found =>
    obtain ⟨⟨_, item, reply⟩, last, rfl, equal⟩ := lookup.found.1 found
    have stored := lookup.stored _ (List.mem_of_getLast? last)
    obtain ⟨inside, isItem⟩ := Array.getElem?_eq_some_iff.1 stored
    have there := lookup.untouched ▸ there
    have items := eraseAt_items held inside
    have whole : held.items.toList = _ := eq_take_append_drop inside
    have same : held.eraseAt location.position = { held with
        items := (held.items.toList.take location.position ++
          held.items.toList.drop (location.position + 1)).toArray } := by
      rw [← items]
      rfl
    refine Succeeds.bind_eq (change_items there same) (Succeeds.of_pure ?_)
    have front := List.length_take_of_le (Nat.le_of_lt inside)
    exact .removed lookup (front.symm ▸ last) equal (isItem ▸ whole)
  next missing => exact Succeeds.of_pure (.kept lookup (by simpa using missing))

section Tally

def gains : Event Request Answer → Bool
  | ⟨.insert _, .ok (.flag inserted)⟩ => inserted
  | _ => false

def loses : Event Request Answer → Bool
  | ⟨.erase _, .ok (.flag erased)⟩ => erased
  | _ => false

def empties : Event Request Answer → Bool
  | ⟨.destroy, .ok _⟩ => true
  | _ => false

def sinceEmptied (history : List (Event Request Answer)) : List (Event Request Answer) :=
  (history.reverse.takeWhile fun event => !empties event).reverse

theorem sinceEmptied_concat (history : List (Event Request Answer)) (event : Event Request Answer) :
    sinceEmptied (history ++ [event]) =
      if empties event then [] else sinceEmptied history ++ [event] := by
  unfold sinceEmptied
  rw [List.reverse_append, List.reverse_singleton, List.singleton_append, List.takeWhile_cons]
  cases empties event <;> simp

/-- The size is what went in and did not come out since the set was created or last emptied. -/
def Tallies (initial : Nat) (history : List (Event Request Answer)) (size : Nat) : Prop :=
  size + (sinceEmptied history).countP loses =
    (if history.any empties then 0 else initial) + (sinceEmptied history).countP gains

def Resizes (event : Event Request Answer) (early late : Nat) : Prop :=
  if empties event then late = 0
  else late + (if loses event then 1 else 0) = early + if gains event then 1 else 0

theorem Tallies.concat {initial early late : Nat} {history : List (Event Request Answer)}
    {event : Event Request Answer} (tallies : Tallies initial history early)
    (resizes : Resizes event early late) : Tallies initial (history ++ [event]) late := by
  unfold Tallies Resizes at *
  rw [sinceEmptied_concat, List.any_append]
  cases emptied : empties event with
  | true => simpa [emptied] using resizes
  | false =>
    simp only [emptied, Bool.false_eq_true, ↓reduceIte, List.countP_append, List.countP_singleton,
      List.any_cons, List.any_nil, Bool.or_false] at resizes ⊢
    omega

end Tally

def Resized (set : Handle OrderedSet) (held : OrderedSet) (event : Event Request Answer)
    (after : State Outside) : Prop :=
  ∃ now, after.containers.sets.cell? set = some now ∧ now.comparator = held.comparator ∧
    Resizes event held.items.size now.items.size

section Requests

variable (there : before.containers.sets.cell? set = some held)

include there

theorem cell?_withItems (items : Array Value) :
    (before.withItems set items).containers.sets.cell? set = some { held with items } := by
  simp [State.withItems, Table.cell?_modify, there]

theorem Lookup.keeps_there {location : Location} {probes : List Probe}
    (lookup : Lookup callbacks held value before location probes after) :
    after.containers.sets.cell? set = some held :=
  lookup.untouched ▸ there

theorem Inserts.resized {inserted : Bool}
    (inserts : Inserts callbacks set held value before inserted after) :
    Resized set held ⟨.insert value, .ok (.flag inserted)⟩ after := by
  cases inserts with
  | kept lookup _ => exact ⟨held, lookup.keeps_there there, rfl, rfl⟩
  | @added _ _ _ left right lookup _ whole _ =>
    refine ⟨_, cell?_withItems (lookup.keeps_there there) _, rfl, ?_⟩
    have size : held.items.size = (left ++ right).length := congrArg List.length whole
    change (left ++ value :: right).length + 0 = held.items.size + 1
    simp [size, Nat.add_assoc]

theorem Erases.resized {erased : Bool}
    (erases : Erases callbacks set held value before erased after) :
    Resized set held ⟨.erase value, .ok (.flag erased)⟩ after := by
  cases erases with
  | kept lookup _ => exact ⟨held, lookup.keeps_there there, rfl, rfl⟩
  | @removed _ _ _ item _ left right lookup _ _ whole =>
    refine ⟨_, cell?_withItems (lookup.keeps_there there) _, rfl, ?_⟩
    have size : held.items.size = (left ++ item :: right).length := congrArg List.length whole
    change (left ++ right).length + 1 = held.items.size + 0
    simp [size, Nat.add_assoc]

theorem perform_resizes (answers : callbacks.Answers held.comparator)
    (keep : callbacks.KeepComparators) (fits : held.items.size ≤ 1 <<< 31) (request : Request) :
    Ends (perform callbacks set request) before
      (fun answer => Resized set held ⟨request, .ok answer⟩) (fun _ _ => True) := by
  cases request with
  | insert value =>
    refine ((insert_inserts_once answers value fits there).bind fun inserted after inserts => ?_).ends
    exact Succeeds.of_pure (inserts.resized there)
  | erase value =>
    refine ((erase_erases_one answers value fits there).bind fun erased after erases => ?_).ends
    exact Succeeds.of_pure (erases.resized there)
  | find value =>
    refine ((find_looks_up answers value fits there).bind fun found after told => ?_).ends
    obtain ⟨_, _, lookup, _⟩ := told
    exact Succeeds.of_pure ⟨held, lookup.keeps_there there, rfl, rfl⟩
  | contains value =>
    refine ((contains_looks_up answers value fits there).bind fun answer after told => ?_).ends
    obtain ⟨_, _, lookup, _⟩ := told
    exact Succeeds.of_pure ⟨held, lookup.keeps_there there, rfl, rfl⟩
  | first | last | toList =>
    refine Succeeds.ends (Succeeds.bind_eq (state_eq there) (Succeeds.of_pure ?_))
    exact ⟨held, there, rfl, rfl⟩
  | destroy =>
    refine Ends.bind ((destroy_empties keep there).imp (fun _ _ told => told) fun _ _ _ => trivial) ?_
    rintro _ after ⟨now, there, same, empty⟩
    exact ⟨now, there, same, by simp [Resizes, empties, empty]⟩

end Requests

section Runs

variable {start final : State Outside} {history : List (Event Request Answer)}

theorem runs_tally (there : start.containers.sets.cell? set = some held)
    (answers : callbacks.Answers held.comparator) (keep : callbacks.KeepComparators)
    (run : (usage callbacks set).Runs start history final) :
    ∃ now, final.containers.sets.cell? set = some now ∧ now.comparator = held.comparator ∧
      Tallies held.items.size history now.items.size := by
  refine run.keeps (fun history state => ∃ now, state.containers.sets.cell? set = some now ∧
    now.comparator = held.comparator ∧ Tallies held.items.size history now.items.size) ?_ ?_ ?_
  · exact ⟨held, there, rfl, by simp [Tallies, sinceEmptied]⟩
  · intro history before request outcome after keeps done counts
    obtain ⟨now, there, same, tallies⟩ := keeps
    obtain ⟨fits, unharmed⟩ := counts
    rw [Table.get_of_cell? there] at fits
    rcases (perform_resizes there (same ▸ answers) keep fits request).attempt with
      ⟨answer, _, ended, resized⟩ | ⟨failure, _, ended, _⟩
    · obtain ⟨rfl, rfl⟩ := Prod.mk.inj (done.symm.trans ended)
      obtain ⟨next, there, alike, resizes⟩ := resized
      exact ⟨next, there, alike.trans same, tallies.concat resizes⟩
    · obtain ⟨rfl, rfl⟩ := Prod.mk.inj (done.symm.trans ended)
      refine ⟨now, (unharmed failure rfl).trans there, same, tallies.concat ?_⟩
      cases request <;> simp [Resizes, empties, gains, loses]
  · intro history before after keeps meanwhile
    obtain ⟨now, there, same, tallies⟩ := keeps
    obtain ⟨destructor, there⟩ := meanwhile now there
    exact ⟨_, there, same, tallies⟩

/--
Whatever its comparator answers, a set counts its items right in every run, and with at most `2 ^ 31` of
them it answers every request: it compares a value with stored items only, and with few of them; it takes
the value in at one position or not at all, and takes out the one item that was just told to be equal or
none.
-/
theorem sets_stay_safe_in_disorder (there : start.containers.sets.cell? set = some held)
    (answers : callbacks.Answers held.comparator) (keep : callbacks.KeepComparators)
    (run : (usage callbacks set).Runs start history final) :
    ∃ now, final.containers.sets.cell? set = some now ∧ now.comparator = held.comparator ∧
      Tallies held.items.size history now.items.size ∧
        (now.items.size ≤ 1 <<< 31 → ∀ value,
          Succeeds (locate callbacks set value) final (fun location after => ∃ probes,
            Lookup callbacks now value final location probes after) ∧
          Succeeds (contains callbacks set value) final (fun answer after => ∃ location probes,
            Lookup callbacks now value final location probes after ∧ answer = location.found) ∧
          Succeeds (find callbacks set value) final (fun answer after => ∃ location probes,
            Lookup callbacks now value final location probes after ∧
              answer = if location.found then now.item location.position else .undefined) ∧
          Succeeds (insert callbacks set value) final (Inserts callbacks set now value final) ∧
          Succeeds (erase callbacks set value) final (Erases callbacks set now value final)) := by
  obtain ⟨now, there, same, tallies⟩ := runs_tally there answers keep run
  have answers : callbacks.Answers now.comparator := same ▸ answers
  refine ⟨now, there, same, tallies, fun fits value => ?_⟩
  exact ⟨locate_looks_up answers value fits there, contains_looks_up answers value fits there,
    find_looks_up answers value fits there, insert_inserts_once answers value fits there,
    erase_erases_one answers value fits there⟩

-- It contradicts itself, and calls any two values equal at every third and fourth call.
def contrary : Callbacks (List (Value × Value)) :=
  { Callbacks.plain (List (Value × Value)) fun _ _ _ => .eq with
    compare := fun _ left right => modifyGet fun state =>
      let order : Ordering := match state.outside.length % 4 with
        | 0 => .lt
        | 1 => .gt
        | _ => .eq
      ({ order }, { state with outside := state.outside ++ [(left, right)] }) }

theorem contrary_answers (comparator : ComparatorId) : contrary.Answers (some comparator) :=
  fun _ _ _ => ⟨_, _, rfl, rfl⟩

theorem contrary_records (comparator : ComparatorId) : contrary.Records (some comparator) id := by
  rintro left right before reply after answered
  cases answered
  rfl

theorem sets_stay_safe_in_disorder_of_contrary :
    ∃ set start, empty (some ⟨0⟩) none ⟨{}, {}, []⟩ = .ok set start ∧
      let told := (usage contrary set).carryOut [.insert (.integer 7), .insert (.integer 5),
        .insert (.integer 9), .insert (.integer 9), .erase (.integer 5)] start
      (usage contrary set).Runs start told.1 told.2 ∧
        told.1.map (·.outcome) = [.ok (.flag true), .ok (.flag true), .ok (.flag false),
          .ok (.flag true), .ok (.flag true)] ∧
        ∃ now, told.2.containers.sets.cell? set = some now ∧
          now.items.toList = [.integer 5, .integer 9] ∧ Tallies 0 told.1 now.items.size ∧
          Succeeds (locate contrary set (.integer 7)) told.2 (fun _ after =>
            after.outside.length ≤ told.2.outside.length + 3) ∧
          Succeeds (insert contrary set (.integer 7)) told.2
            (Inserts contrary set now (.integer 7) told.2) ∧
          Succeeds (erase contrary set (.integer 7)) told.2
            (Erases contrary set now (.integer 7) told.2) := by
  refine ⟨⟨0⟩, _, rfl, ?_⟩
  intro told
  have run : (usage contrary ⟨0⟩).Runs _ told.1 told.2 := Usage.runs_carryOut (by decide +kernel)
  have keep : contrary.KeepComparators := fun _ _ _ held _ there => ⟨held, there, rfl⟩
  obtain ⟨now, there, same, tallies, safe⟩ :=
    sets_stay_safe_in_disorder rfl (contrary_answers ⟨0⟩) keep run
  obtain rfl : { items := #[.integer 5, .integer 9], comparator := some ⟨0⟩ } = now := by
    have computed : told.2.containers.sets.cell? ⟨0⟩ =
        some { items := #[.integer 5, .integer 9], comparator := some ⟨0⟩ } := by
      decide +kernel
    exact Option.some.inj (computed.symm.trans there)
  obtain ⟨locates, _, _, inserts, erases⟩ := safe (by decide) (.integer 7)
  refine ⟨run, by decide +kernel, _, there, rfl, tallies, locates.imp ?_, inserts, erases⟩
  rintro location after ⟨probes, lookup⟩
  have few : probes.length ≤ 3 := lookup.few
  have recorded := congrArg List.length (lookup.recorded id (contrary_records ⟨0⟩))
  simp only [id_eq, List.length_append, List.length_map] at recorded
  omega

end Runs

end OrderedSet

end Collections
