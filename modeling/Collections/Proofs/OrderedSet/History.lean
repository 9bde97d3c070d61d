import Collections.Proofs.Callbacks
import Collections.Proofs.OrderedSet.Building
import Collections.Proofs.OrderedSet.Editing
import Collections.Proofs.Usage
import Collections.Proofs.Visiting

set_option autoImplicit false

namespace Collections.OrderedSet

open Std

variable {Outside : Type}

inductive Request where
  | insert (value : Value)
  | erase (value : Value)
  | find (value : Value)
  | contains (value : Value)
  | first
  | last
  | toList
  | destroy

inductive Answer where
  | flag (flag : Bool)
  | item (value : Value)
  | items (values : List Value)
  | done
  deriving DecidableEq

def perform (callbacks : Callbacks Outside) (set : Handle OrderedSet) :
    Request → Action Outside Answer
  | .insert value => return .flag (← insert callbacks set value)
  | .erase value => return .flag (← erase callbacks set value)
  | .find value => return .item (← find callbacks set value)
  | .contains value => return .flag (← contains callbacks set value)
  | .first => return .item (← state set).first
  | .last => return .item (← state set).last
  | .toList => return .items (← state set).items.toList
  | .destroy => do
      destroy callbacks set
      return .done

inductive Creation where
  | empty
  | ofValues (values : List Value)

def create (callbacks : Callbacks Outside) (comparator : ComparatorId)
    (destructor : Option String) : Creation → Action Outside (Handle OrderedSet)
  | .empty => empty (some comparator) destructor
  | .ofValues values => ofValues callbacks values (some comparator) destructor

inductive Deed where
  | inserted (value : Value)
  | erased (value : Value)
  | cleared

namespace Deed

variable (order : Value → Value → Ordering)

def spares (asked : Value) : Deed → Bool
  | .inserted _ => true
  | .erased value => order asked value != .eq
  | .cleared => false

def arrival? (asked : Value) : Deed → Option Value
  | .inserted value => if order asked value = .eq then some value else none
  | _ => none

end Deed

/-- The first value of a class to be inserted since the class was last taken out. -/
def representative (order : Value → Value → Ordering) (deeds : List Deed) (asked : Value) :
    Option Value :=
  (deeds.reverse.takeWhile (·.spares order asked)).reverse.findSome? (·.arrival? order asked)

def Creation.deeds : Creation → List Deed
  | .empty => []
  | .ofValues values => values.map .inserted

def deedsOf (event : Event Request Answer) : List Deed :=
  match event.outcome, event.command with
  | .ok _, .insert value => [.inserted value]
  | .ok _, .erase value => [.erased value]
  | .ok _, .destroy => [.cleared]
  | _, _ => []

section Representative

variable (order : Value → Value → Ordering)

theorem representative_concat (deeds : List Deed) (deed : Deed) (asked : Value) :
    representative order (deeds ++ [deed]) asked =
      if deed.spares order asked then
        (representative order deeds asked).or (deed.arrival? order asked)
      else none := by
  unfold representative
  rw [List.reverse_append, List.reverse_singleton, List.singleton_append, List.takeWhile_cons]
  split
  · simp only [List.reverse_cons, List.findSome?_append, List.findSome?_singleton]
  · rfl

theorem representative_append_inserted (deeds : List Deed) (values : List Value) (asked : Value) :
    representative order (deeds ++ values.map .inserted) asked =
      (representative order deeds asked).or (equalTo order asked values) := by
  induction values generalizing deeds with
  | nil => simp [equalTo_nil]
  | cons value rest ih =>
    rw [List.map_cons, List.append_cons, ih, representative_concat, equalTo_cons]
    simp only [Deed.spares, Deed.arrival?, ↓reduceIte, Option.or_assoc]
    congr 1
    split <;> rfl

theorem representative_creation (creation : Creation) (asked : Value) :
    representative order creation.deeds asked =
      match creation with
      | .empty => none
      | .ofValues values => equalTo order asked values := by
  cases creation with
  | empty => rfl
  | ofValues values => exact representative_append_inserted order [] values asked

end Representative

def Holding (set : Handle OrderedSet) (comparator : ComparatorId) (items : List Value)
    (state : State Outside) : Prop :=
  ∃ held, state.containers.sets.cell? set = some held ∧ held.comparator = some comparator ∧
    held.items.toList = items

def Meets (order : Value → Value → Ordering) (quiet : Prop) (items : List Value) :
    Request → Except Failure Answer → List Value → Prop
  | .insert value, outcome, result =>
      ∃ inserted, outcome = .ok (.flag inserted) ∧ Inserted order value items inserted result
  | .erase value, outcome, result =>
      ∃ erased, outcome = .ok (.flag erased) ∧ Erased order value items erased result
  | .find value, outcome, result =>
      outcome = .ok (.item ((equalTo order value items).getD .undefined)) ∧ result = items
  | .contains value, outcome, result =>
      outcome = .ok (.flag (equalTo order value items).isSome) ∧ result = items
  | .first, outcome, result =>
      result = items ∧ ((items = [] ∧ outcome = .ok (.item .undefined)) ∨
        ∃ least ∈ items, outcome = .ok (.item least) ∧ ∀ item ∈ items, (order least item).isLE)
  | .last, outcome, result =>
      result = items ∧ ((items = [] ∧ outcome = .ok (.item .undefined)) ∨
        ∃ greatest ∈ items, outcome = .ok (.item greatest) ∧
          ∀ item ∈ items, (order item greatest).isLE)
  | .toList, outcome, result => outcome = .ok (.items items) ∧ result = items
  | .destroy, outcome, result =>
      (outcome = .ok .done ∧ result = []) ∨ (¬ quiet ∧ ∃ failure, outcome = .error failure)

/--
A request counts on a set of at most `2 ^ 31` items. A destruction that fails counts as one if its
destructors left the set alone; if they did not, what they asked of it counts instead. Others may
give the set another destructor between requests.
-/
def usage (callbacks : Callbacks Outside) (set : Handle OrderedSet) :
    Usage Outside Request Answer where
  perform := perform callbacks set
  Counts _ before outcome after :=
    (before.containers.sets.get set).items.size ≤ 1 <<< 31 ∧
      ∀ failure, outcome = .error failure →
        after.containers.sets.cell? set = before.containers.sets.cell? set
  Between before after := ∀ held, before.containers.sets.cell? set = some held →
    ∃ destructor, after.containers.sets.cell? set = some { held with destructor }

instance (callbacks : Callbacks Outside) (set : Handle OrderedSet) (request : Request)
    (before after : State Outside) (outcome : Except Failure Answer) :
    Decidable ((usage callbacks set).Counts request before outcome after) :=
  match outcome with
  | .ok _ => decidable_of_iff ((before.containers.sets.get set).items.size ≤ 1 <<< 31) <| by
      simp [usage]
  | .error _ => decidable_of_iff ((before.containers.sets.get set).items.size ≤ 1 <<< 31 ∧
      after.containers.sets.cell? set = before.containers.sets.cell? set) <| by
        simp [usage]

section Requests

variable {order : Value → Value → Ordering} [TransCmp order] {items result : List Value}

-- What a request makes of the classes is what it adds to the history.
theorem Meets.representative_eq {quiet : Prop} {request : Request} {answer : Answer}
    {deeds : List Deed} (strict : Strict order items)
    (meets : Meets order quiet items request (.ok answer) result)
    (told : ∀ value, equalTo order value items = representative order deeds value) (value : Value) :
    equalTo order value result =
      representative order (deeds ++ deedsOf ⟨request, .ok answer⟩) value := by
  -- Only the requests that are deeds change the items; the others leave the history as it is.
  cases request with
  | insert inserted =>
    obtain ⟨_, _, inserted⟩ := meets
    change _ = representative order (deeds ++ [.inserted _]) value
    rw [inserted.equalTo_eq, equalTo_append, equalTo_cons, equalTo_nil, told, representative_concat]
    simp [Deed.spares, Deed.arrival?]
  | erase erased =>
    obtain ⟨_, _, erased⟩ := meets
    change _ = representative order (deeds ++ [.erased _]) value
    rw [erased.equalTo_eq strict, told, representative_concat]
    simp only [Deed.spares, Deed.arrival?, Option.or_none, bne_iff_ne]
    split <;> simp_all
  | destroy =>
    rcases meets with ⟨_, cleared⟩ | ⟨_, failure, failed⟩
    · change _ = representative order (deeds ++ [.cleared]) value
      rw [cleared, representative_concat]
      rfl
    · cases failed
  | find | contains | toList => rw [meets.2, told]; simp [deedsOf]
  | first | last => rw [meets.1, told]; simp [deedsOf]

end Requests

section Destruction

variable {callbacks : Callbacks Outside} {set : Handle OrderedSet} {comparator : ComparatorId}
  {items : List Value} {before : State Outside}

theorem Holding.of_containers_eq {after : State Outside}
    (holding : Holding set comparator items before) (same : after.containers = before.containers) :
    Holding set comparator items after := by
  obtain ⟨held, there, rest⟩ := holding
  exact ⟨held, same ▸ there, rest⟩

theorem clear_holds (holding : Holding set comparator items before) :
    Succeeds (change set cleared) before fun _ after => Holding set comparator [] after := by
  obtain ⟨held, there, same, _⟩ := holding
  exact (change_becomes there cleared).imp fun _ after told => ⟨_, told.2.there, same, rfl⟩

-- Destructors may do anything to the items, but they leave the set its comparator.
theorem destroy_empties (keep : callbacks.KeepComparators) {held : OrderedSet}
    (there : before.containers.sets.cell? set = some held) :
    Ends (destroy callbacks set) before
      (fun _ after => ∃ now, after.containers.sets.cell? set = some now ∧
        now.comparator = held.comparator ∧ now.items = #[])
      (fun _ after => ∃ now, after.containers.sets.cell? set = some now ∧
        now.comparator = held.comparator) := by
  let keeps (state : State Outside) := ∃ now, state.containers.sets.cell? set = some now ∧
    now.comparator = held.comparator
  have walk (destructor : String) : Keeps keeps (callbacks.visitAll
      (return (← state set).items.size) fun position => do
        let item := (← state set).item position
        if !item.isNull then callbacks.destruct destructor item) := by
    refine Keeps.visitAll (fun _ kept => kept) fun position state kept => ?_
    let item := (state.containers.sets.get set).item position
    change Ends (if !item.isNull then callbacks.destruct destructor item else pure ()) state _ _
    split
    · obtain ⟨now, there, same⟩ := kept
      exact (keep destructor item set now state there).imp
        (fun _ _ ⟨kept, thereStill, alike⟩ => ⟨kept, thereStill, alike.trans same⟩)
        (fun _ _ ⟨kept, thereStill, alike⟩ => ⟨kept, thereStill, alike.trans same⟩)
    · exact kept
  have clearing (state : State Outside) (kept : keeps state) :
      Ends (change set cleared) state (fun _ after => ∃ now,
        after.containers.sets.cell? set = some now ∧ now.comparator = held.comparator ∧
          now.items = #[]) (fun _ => keeps) := by
    obtain ⟨now, there, same⟩ := kept
    exact ((change_becomes there cleared).imp fun _ _ told => ⟨_, told.2.there, same, rfl⟩).ends
  have kept : keeps before := ⟨held, there, rfl⟩
  apply Ends.bind_eq (state_eq there)
  split
  next destructor _ => exact (walk destructor before kept).bind fun _ => clearing
  next => exact clearing before kept

theorem destroy_clears (keep : callbacks.KeepComparators)
    (holding : Holding set comparator items before) :
    Ends (destroy callbacks set) before (fun _ after => Holding set comparator [] after)
      (fun _ after => ∃ left, Holding set comparator left after) := by
  obtain ⟨held, there, same, _⟩ := holding
  refine (destroy_empties keep there).imp ?_ ?_
  · rintro _ after ⟨now, there, alike, empty⟩
    exact ⟨now, there, alike.trans same, congrArg Array.toList empty⟩
  · rintro _ after ⟨now, there, alike⟩
    exact ⟨_, now, there, alike.trans same, rfl⟩

theorem destroy_succeeds (quiet : callbacks.QuietDestructors)
    (holding : Holding set comparator items before) :
    Succeeds (destroy callbacks set) before fun _ after => Holding set comparator [] after := by
  let same (state : State Outside) := state.containers = before.containers
  have walk (destructor : String) : Succeeds (callbacks.visitAll (return (← state set).items.size)
      fun position => do
        let item := (← state set).item position
        if !item.isNull then callbacks.destruct destructor item)
      before fun _ => same := by
    have steady (_ : Nat) (ready : State Outside) (unchanged : same ready) :
        (return (← state set).items.size : Action Outside Nat) ready =
          .ok (before.containers.sets.get set).items.size ready := by
      change EStateM.Result.ok (ready.containers.sets.get set).items.size ready = _
      rw [unchanged]
    refine Ends.succeeds (visitAll_ends callbacks steady (fun position state _ same => ?_) before rfl)
    · let item := (state.containers.sets.get set).item position
      change Ends (if !item.isNull then callbacks.destruct destructor item else pure ()) state _ _
      split
      · exact ((quiet destructor item state).imp fun _ after told => told.trans same).ends
      · exact same
  have clearing (state : State Outside) (unchanged : same state) :
      Succeeds (change set cleared) state fun _ after => Holding set comparator [] after :=
    clear_holds (holding.of_containers_eq unchanged)
  obtain ⟨held, there, _⟩ := holding
  apply Succeeds.bind_eq (state_eq there)
  split
  next destructor _ => exact (walk destructor).bind fun _ => clearing
  next => exact clearing before rfl

end Destruction

section Performing

variable {callbacks : Callbacks Outside} {set : Handle OrderedSet} {comparator : ComparatorId}
  {order : Value → Value → Ordering} [TransCmp order] {items : List Value} {before : State Outside}

theorem first_eq_head? (held : OrderedSet) :
    held.first = held.items.toList.head?.getD .undefined := by
  simp [OrderedSet.first, item, Array.getD_eq_getD_getElem?, ← Array.getElem?_toList,
    List.head?_eq_getElem?]

theorem last_eq_getLast? (held : OrderedSet) :
    held.last = held.items.toList.getLast?.getD .undefined := by
  simp [OrderedSet.last]

theorem Holding.searchable {held : OrderedSet} (compares : callbacks.Compares comparator order)
    (there : before.containers.sets.cell? set = some held) (same : held.comparator = some comparator)
    (strict : Strict order held.items.toList) (fits : held.items.size ≤ 1 <<< 31) :
    Searchable callbacks (.constant order) set held before where
  there := there
  ranks := same ▸ compares.ranks
  ascends := List.Pairwise.imp (fun below => ⟨trivial, below⟩) strict
  fits := fits

theorem perform_meets (compares : callbacks.Compares comparator order)
    (keep : callbacks.KeepComparators) (holding : Holding set comparator items before)
    (strict : Strict order items) (fits : items.length ≤ 1 <<< 31) (request : Request) :
    Ends (perform callbacks set request) before
      (fun answer after => ∃ result, Holding set comparator result after ∧ Strict order result ∧
        Meets order callbacks.QuietDestructors items request (.ok answer) result)
      (fun failure after => ∃ result, Holding set comparator result after ∧
        Meets order callbacks.QuietDestructors items request (.error failure) result) := by
  have ⟨held, there, same, told⟩ := holding
  subst told
  have searchable := Holding.searchable compares there same strict fits
  cases request with
  | insert value =>
    refine ((insert_inserts searchable value).bind fun inserted after told => ?_).ends
    obtain ⟨result, becomes, ascends, _, inserts⟩ := told
    exact Succeeds.of_pure ⟨result.toList, ⟨_, becomes.there, same, rfl⟩, ascends.strict, inserted,
      rfl, inserts⟩
  | erase value =>
    refine ((erase_erases searchable value).bind fun erased after told => ?_).ends
    obtain ⟨result, becomes, ascends, _, erases⟩ := told
    exact Succeeds.of_pure ⟨result.toList, ⟨_, becomes.there, same, rfl⟩, ascends.strict, erased,
      rfl, erases⟩
  | find value =>
    refine ((find_finds searchable value).bind fun found after told => ?_).ends
    obtain ⟨advances, _, rfl⟩ := told
    exact Succeeds.of_pure ⟨_, holding.of_containers_eq advances.containers, strict, rfl, rfl⟩
  | contains value =>
    refine ((contains_tells searchable value).bind fun answer after told => ?_).ends
    obtain ⟨advances, _, rfl⟩ := told
    exact Succeeds.of_pure ⟨_, holding.of_containers_eq advances.containers, strict, rfl, rfl⟩
  | first =>
    refine Succeeds.ends (Succeeds.bind_eq (state_eq there) ?_)
    refine Succeeds.of_pure ⟨_, holding, strict, rfl, ?_⟩
    rw [first_eq_head?]
    cases first : held.items.toList.head? with
    | none => exact .inl ⟨List.head?_eq_none_iff.1 first, rfl⟩
    | some least =>
      obtain ⟨member, lowest⟩ := strict.first_least first
      exact .inr ⟨least, member, rfl, lowest⟩
  | last =>
    refine Succeeds.ends (Succeeds.bind_eq (state_eq there) ?_)
    refine Succeeds.of_pure ⟨_, holding, strict, rfl, ?_⟩
    rw [last_eq_getLast?]
    cases last : held.items.toList.getLast? with
    | none => exact .inl ⟨List.getLast?_eq_none_iff.1 last, rfl⟩
    | some greatest =>
      obtain ⟨member, highest⟩ := strict.last_greatest last
      exact .inr ⟨greatest, member, rfl, highest⟩
  | toList =>
    refine Succeeds.ends (Succeeds.bind_eq (state_eq there) ?_)
    exact Succeeds.of_pure ⟨_, holding, strict, rfl, rfl⟩
  | destroy =>
    by_cases quiet : callbacks.QuietDestructors
    · refine ((destroy_succeeds quiet holding).bind fun _ after cleared => ?_).ends
      exact Succeeds.of_pure ⟨[], cleared, List.Pairwise.nil, .inl ⟨rfl, rfl⟩⟩
    · have ends : Ends (destroy callbacks set) before
          (fun _ after => Holding set comparator [] after)
          (fun failure after => ∃ result, Holding set comparator result after ∧
            Meets order callbacks.QuietDestructors held.items.toList .destroy (.error failure) result) :=
        (destroy_clears keep holding).imp (fun _ _ cleared => cleared)
          fun failure _ ⟨left, holding⟩ => ⟨left, holding, .inr ⟨quiet, failure, rfl⟩⟩
      exact ends.bind fun _ after cleared =>
        (Succeeds.of_pure ⟨[], cleared, List.Pairwise.nil, .inl ⟨rfl, rfl⟩⟩).ends

end Performing

section Runs

variable {callbacks : Callbacks Outside} {comparator : ComparatorId}
  {order : Value → Value → Ordering} [TransCmp order]

def Keeps (set : Handle OrderedSet) (comparator : ComparatorId) (order : Value → Value → Ordering)
    (deeds : List Deed) (state : State Outside) : Prop :=
  ∃ items, Holding set comparator items state ∧ Strict order items ∧
    ∀ value, equalTo order value items = representative order deeds value

theorem create_keeps (compares : callbacks.Compares comparator order) (creation : Creation)
    (destructor : Option String) (before : State Outside) :
    Succeeds (create callbacks comparator destructor creation) before fun set after =>
      Keeps set comparator order creation.deeds after := by
  cases creation with
  | empty =>
    refine (add_becomes _ before).imp fun set after told => ?_
    refine ⟨[], ⟨_, told.2.2.there, rfl, rfl⟩, List.Pairwise.nil, fun value => ?_⟩
    rw [representative_creation]
    rfl
  | ofValues values =>
    refine (ofValues_ascends compares.ranks values destructor before).imp fun set after told => ?_
    obtain ⟨_, items, becomes, ascends, keeps⟩ := told
    refine ⟨items.toList, ⟨_, becomes.there, rfl, rfl⟩, ascends.strict, fun value => ?_⟩
    rw [representative_creation]
    exact keeps value

theorem Holding.size_eq {set : Handle OrderedSet} {items : List Value} {before : State Outside}
    (holding : Holding set comparator items before) :
    (before.containers.sets.get set).items.size = items.length := by
  obtain ⟨held, there, _, rfl⟩ := holding
  rw [Table.get_of_cell? there, Array.length_toList]

theorem runs_keep (compares : callbacks.Compares comparator order) (keep : callbacks.KeepComparators)
    {set : Handle OrderedSet} {deeds : List Deed} {start final : State Outside}
    {history : List (Event Request Answer)} (initially : Keeps set comparator order deeds start)
    (run : (usage callbacks set).Runs start history final) :
    Keeps set comparator order (deeds ++ history.flatMap deedsOf) final := by
  refine run.keeps (fun history state =>
    Keeps set comparator order (deeds ++ history.flatMap deedsOf) state) ?_ ?_ ?_
  · simpa using initially
  · intro history before request outcome after keeps done counts
    obtain ⟨items, holding, strict, told⟩ := keeps
    obtain ⟨fits, unharmed⟩ := counts
    rw [holding.size_eq] at fits
    rw [List.flatMap_append, List.flatMap_singleton, ← List.append_assoc]
    -- An answer adds its deed to the history; a failure has neither a deed nor an effect.
    rcases (perform_meets compares keep holding strict fits request).attempt with
      ⟨answer, _, ended, result, after, strictAfter, meets⟩ | ⟨failure, _, ended, _⟩
    · obtain ⟨rfl, rfl⟩ := Prod.mk.inj (done.symm.trans ended)
      exact ⟨result, after, strictAfter, meets.representative_eq strict told⟩
    · obtain ⟨rfl, rfl⟩ := Prod.mk.inj (done.symm.trans ended)
      obtain ⟨held, there, rest⟩ := holding
      refine ⟨items, ⟨held, (unharmed failure rfl).trans there, rest⟩, strict, fun value => ?_⟩
      simpa [deedsOf] using told value
  · intro history before after keeps meanwhile
    obtain ⟨items, ⟨held, there, same, rfl⟩, strict, told⟩ := keeps
    obtain ⟨destructor, there⟩ := meanwhile held there
    exact ⟨_, ⟨_, there, same, rfl⟩, strict, told⟩

/--
Whatever is asked of a set after its creation, its items ascend strictly under its comparator and hold
of every class the value that was inserted first since the class was last taken out; and every request
ends as it should for such items.
-/
theorem items_keep_history (compares : callbacks.Compares comparator order)
    (keep : callbacks.KeepComparators) (creation : Creation) (destructor : Option String)
    (before : State Outside) :
    Succeeds (create callbacks comparator destructor creation) before fun set start =>
      ∀ history final, (usage callbacks set).Runs start history final → ∃ items,
        Holding set comparator items final ∧ Strict order items ∧
          (∀ value, equalTo order value items =
            representative order (creation.deeds ++ history.flatMap deedsOf) value) ∧
          ∀ request, items.length ≤ 1 <<< 31 → ∃ outcome after result,
            attempt (perform callbacks set request) final = (outcome, after) ∧
              Holding set comparator result after ∧
                Meets order callbacks.QuietDestructors items request outcome result := by
  refine (create_keeps compares creation destructor before).imp fun set start initially => ?_
  intro history final run
  obtain ⟨items, holding, strict, told⟩ := runs_keep compares keep initially run
  refine ⟨items, holding, strict, told, fun request fits => ?_⟩
  rcases (perform_meets compares keep holding strict fits request).attempt with
    ⟨answer, after, ended, result, holds, _, meets⟩ | ⟨failure, after, ended, result, holds, meets⟩
  · exact ⟨.ok answer, after, result, ended, holds, meets⟩
  · exact ⟨.error failure, after, result, ended, holds, meets⟩

end Runs

theorem items_keep_history_by_rank :
    ∃ set start final last,
      create (Callbacks.plain Unit fun _ => compareOn Value.rank) ⟨0⟩ none .empty ⟨{}, {}, ()⟩ =
          .ok set start ∧
        (usage (Callbacks.plain Unit fun _ => compareOn Value.rank) set).Runs start
            [⟨.insert (.integer 7), .ok (.flag true)⟩] final ∧
          attempt (perform (Callbacks.plain Unit fun _ => compareOn Value.rank) set (.find (.integer 5)))
            final = (.ok (.item (.integer 7)), last) := by
  obtain ⟨set, start, created, kept⟩ := items_keep_history
    (Callbacks.plain_compares Unit (fun _ => compareOn Value.rank) ⟨0⟩)
    (Callbacks.plain_keepComparators Unit _) .empty none ⟨{}, {}, ()⟩
  obtain ⟨items, holding, strict, told, requests⟩ := kept [] start .start
  obtain rfl : items = [] := strict.eq_of_equalTo List.Pairwise.nil told
  obtain ⟨_, after, _, done, _, inserted, rfl, inserts⟩ :=
    requests (.insert (.integer 7)) (by decide)
  obtain rfl : inserted = true := inserts.answer_eq
  have run : (usage (Callbacks.plain Unit fun _ => compareOn Value.rank) set).Runs start
      [⟨.insert (.integer 7), .ok (.flag true)⟩] after :=
    Usage.Runs.start.command done ⟨by rw [holding.size_eq]; decide, nofun⟩
  obtain ⟨items, _, strict, told, requests⟩ := kept _ after run
  have single (value : Value) : equalTo (compareOn Value.rank) value items =
      equalTo (compareOn Value.rank) value [.integer 7] :=
    (told value).trans (representative_append_inserted _ [] [.integer 7] value)
  obtain rfl : items = [.integer 7] := strict.eq_of_equalTo (List.pairwise_singleton _ _) single
  obtain ⟨_, last, _, found, _, rfl, _⟩ := requests (.find (.integer 5)) (by decide)
  exact ⟨set, start, after, last, created, run, found⟩

end Collections.OrderedSet
