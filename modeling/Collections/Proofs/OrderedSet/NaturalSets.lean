import Collections.Proofs.OrderedSet.Building
import Collections.Proofs.OrderedSet.Editing
import Collections.Proofs.Sequence.Showing
import Collections.Proofs.Session
import Collections.Proofs.Usage

set_option autoImplicit false

namespace Collections.NaturalSets

open Std

variable {Outside : Type}

inductive Command where
  | compare (left right : Value)
  | empty (destructor : Option String)
  | ofValues (values : List Value) (destructor : Option String)
  | insert (set : Handle OrderedSet) (value : Value)
  | erase (set : Handle OrderedSet) (value : Value)
  | find (set : Handle OrderedSet) (value : Value)
  | contains (set : Handle OrderedSet) (value : Value)
  | toOrderedSet (list : Handle Sequence)
  | convertToOrderedSet (list : Handle Sequence)

inductive Answer where
  | sign (sign : Int)
  | set (set : Handle OrderedSet)
  | flag (flag : Bool)
  | item (value : Value)
  deriving DecidableEq

def perform (callbacks : Callbacks Outside) : Command → Action Outside Answer
  | .compare left right => return .sign (← naturalOrder left right)
  | .empty destructor => return .set (← OrderedSet.empty none destructor)
  | .ofValues values destructor =>
      return .set (← OrderedSet.ofValues callbacks values none destructor)
  | .insert set value => return .flag (← OrderedSet.insert callbacks set value)
  | .erase set value => return .flag (← OrderedSet.erase callbacks set value)
  | .find set value => return .item (← OrderedSet.find callbacks set value)
  | .contains set value => return .flag (← OrderedSet.contains callbacks set value)
  | .toOrderedSet list => return .set (← Sequence.toOrderedSet callbacks list none)
  | .convertToOrderedSet list => return .set (← Sequence.convertToOrderedSet callbacks list)

def Command.set? : Command → Option (Handle OrderedSet)
  | .insert set _ | .erase set _ | .find set _ | .contains set _ => some set
  | _ => none

def Naturally (set : Handle OrderedSet) (held : OrderedSet) (state : State Outside) : Prop :=
  state.containers.sets.cell? set = some held ∧ held.comparator = none ∧ held.items.size ≤ 1 <<< 31

/--
A command counts on sets in natural order of at most `2 ^ 31` items. Between commands anything may
happen: ordinals may be handed out, and lists and other sets changed; a set in natural order keeps
its items or loses them all.
-/
def usage (callbacks : Callbacks Outside) : Usage Outside Command Answer where
  perform := perform callbacks
  Counts command before _ _ := ∀ set, command.set? = some set → ∃ held, Naturally set held before
  Between before after := before.ordinals ≤ after.ordinals ∧
    ∀ set held, after.containers.sets.cell? set = some held → held.comparator = none →
      held.items.toList = [] ∨ ∃ earlier, before.containers.sets.cell? set = some earlier ∧
        earlier.comparator = none ∧ held.items = earlier.items

instance (callbacks : Callbacks Outside) (command : Command) (before after : State Outside)
    (outcome : Except Failure Answer) :
    Decidable ((usage callbacks).Counts command before outcome after) :=
  match named : command.set? with
  | none => .isTrue fun _ same => nomatch named.symm.trans same
  | some set =>
      decidable_of_iff ((before.containers.sets.cell? set).any fun held =>
        held.comparator = none ∧ held.items.size ≤ 1 <<< 31) <| by
          simp [usage, Naturally, named, Option.any_eq_true]

def Undisturbed (state : State Outside) : Prop :=
  ∀ set held, state.containers.sets.cell? set = some held → held.comparator = none →
    Ranking.natural.Ascends state.ordinals held.items.toList

section Steps

variable {callbacks : Callbacks Outside} {set : Handle OrderedSet} {held : OrderedSet}
  {list : Handle Sequence} {before after : State Outside}

theorem Undisturbed.becomes (undisturbed : Undisturbed before)
    (becomes : before.SetBecomes set held after)
    (ascends : held.comparator = none →
      Ranking.natural.Ascends after.ordinals held.items.toList) : Undisturbed after :=
  Ranking.SetsAscend.becomes undisturbed becomes ascends

theorem Undisturbed.of_sets_eq (undisturbed : Undisturbed before)
    (same : after.containers.sets = before.containers.sets)
    (extended : before.ordinals ≤ after.ordinals) : Undisturbed after :=
  Ranking.SetsAscend.of_sets_eq undisturbed same extended

theorem Undisturbed.advances (undisturbed : Undisturbed before) (advances : before.Advances after) :
    Undisturbed after :=
  undisturbed.of_sets_eq (by rw [advances.containers]) advances.ordinals

theorem Undisturbed.searchable (undisturbed : Undisturbed before)
    (naturally : Naturally set held before) :
    OrderedSet.Searchable callbacks .natural set held before where
  there := naturally.1
  ranks := naturally.2.1 ▸ callbacks.naturalOrder_ranks
  ascends := undisturbed set held naturally.1 naturally.2.1
  fits := naturally.2.2

theorem ofValues_undisturbed (undisturbed : Undisturbed before) (values : List Value)
    (destructor : Option String) :
    Succeeds (OrderedSet.ofValues callbacks values none destructor) before fun set after =>
      Undisturbed after ∧ after.containers.lists = before.containers.lists ∧
        ∃ made, after.containers.sets.cell? set = some made := by
  refine (OrderedSet.ofValues_ascends callbacks.naturalOrder_ranks values destructor before).imp
    fun set after told => ?_
  obtain ⟨_, items, becomes, ascends, _⟩ := told
  exact ⟨undisturbed.becomes becomes fun _ => ascends, becomes.lists, _, becomes.there⟩

theorem requireLive_undisturbed (undisturbed : Undisturbed before) (list : Handle Sequence)
    (operation : ListOperation) :
    Ends (Sequence.requireLive list operation) before
      (fun _ after => after = before ∧ ∃ held, before.containers.lists.cell? list = some held)
      (fun _ => Undisturbed) := by
  cases there : before.containers.lists.cell? list with
  | none =>
    change Ends (if (before.containers.lists.get list).destroyed then
      throw (.list (.destroyed operation)) else pure () : Action Outside Unit) before _ _
    rw [Table.get_of_cell?_eq_none there]
    exact undisturbed
  | some held =>
    change Ends (if (before.containers.lists.get list).destroyed then
      throw (.list (.destroyed operation)) else pure () : Action Outside Unit) before _ _
    split
    · exact undisturbed
    · exact ⟨rfl, held, rfl⟩

theorem look_advances (looks : callbacks.OnlyLook) (storage : Storage) (name : String) :
    OnlyAdvances (Sequence.look callbacks storage name) := by
  unfold Sequence.look
  split
  · exact .of_pure _
  · exact looks.lookAbove storage.parent name

theorem copyOut_advances (looks : callbacks.OnlyLook) (list : Handle Sequence) :
    OnlyAdvances (Sequence.copyOut callbacks list) := by
  have state : OnlyAdvances (Sequence.state list : Action Outside Sequence) :=
    .bind_containers fun _ => .of_pure _
  exact state.bind fun held => (look_advances looks held.storage "slice").bind fun copying =>
    (look_advances looks held.storage "constructor").bind fun constructing =>
      (looks.requireCopyable copying constructing).bind fun _ => .of_pure held.held

theorem toOrderedSet_undisturbed (looks : callbacks.OnlyLook) (undisturbed : Undisturbed before)
    (list : Handle Sequence) :
    Ends (Sequence.toOrderedSet callbacks list none) before
      (fun set after => Undisturbed after ∧
        (∃ held, after.containers.lists.cell? list = some held) ∧
          ∃ made, after.containers.sets.cell? set = some made)
      (fun _ => Undisturbed) := by
  refine (requireLive_undisturbed undisturbed list .toOrderedSet).bind fun _ middle told => ?_
  obtain ⟨rfl, held, there⟩ := told
  have copying : Ends (Sequence.copyOut callbacks list) middle (fun _ => middle.Advances)
      (fun _ => Undisturbed) :=
    (copyOut_advances looks list middle).imp (fun _ _ told => told)
      fun _ _ advances => undisturbed.advances advances
  refine copying.bind fun copied after advances => ?_
  refine (ofValues_undisturbed (undisturbed.advances advances) _ none).ends.imp
    (fun set last told => ?_) fun _ _ told => told
  obtain ⟨kept, lists, made⟩ := told
  exact ⟨kept, ⟨held, by rw [lists, advances.containers, there]⟩, made⟩

theorem changeList_undisturbed {kept : Sequence} (undisturbed : Undisturbed before)
    (there : before.containers.lists.cell? list = some kept) (step : Sequence → Sequence) :
    Succeeds (Sequence.change list step) before fun _ after =>
      Undisturbed after ∧ after.containers.lists.cell? list = some (step kept) := by
  refine ⟨(), _, rfl, undisturbed.of_sets_eq rfl (Ordinals.le_refl before.ordinals), ?_⟩
  dsimp only
  rw [Table.cell?_modify, if_pos rfl, there]
  rfl

theorem notify_advances (list : Handle Sequence) (notice : Notice) :
    OnlyAdvances (Sequence.notify callbacks list notice) := by
  refine OnlyAdvances.bind (.bind_containers fun _ => .of_pure _) fun held before => ?_
  split
  · exact ⟨rfl, Ordinals.le_refl before.ordinals⟩
  · exact .refl before

theorem notify_undisturbed (undisturbed : Undisturbed before) (list : Handle Sequence)
    (notice : Notice) :
    Ends (Sequence.notify callbacks list notice) before
      (fun _ after => Undisturbed after ∧ after.containers = before.containers)
      (fun _ => Undisturbed) :=
  (notify_advances list notice before).imp
    (fun _ _ advances => ⟨undisturbed.advances advances, advances.containers⟩)
    fun _ _ advances => undisturbed.advances advances

theorem destroy_undisturbed {kept : Sequence} (undisturbed : Undisturbed before)
    (there : before.containers.lists.cell? list = some kept) (nothing : kept.destructor = none) :
    Ends (Sequence.destroy callbacks list) before (fun _ => Undisturbed) (fun _ => Undisturbed) := by
  refine (requireLive_undisturbed undisturbed list .destroy).bind fun _ middle told => ?_
  obtain ⟨rfl, _⟩ := told
  apply Ends.bind_eq (Sequence.state_eq there)
  rw [nothing]
  refine (changeList_undisturbed undisturbed there Sequence.release).ends.bind fun _ last told => ?_
  exact (notify_undisturbed told.1 list _).imp (fun _ _ told => told.1) fun _ _ kept => kept

theorem convertToOrderedSet_undisturbed (looks : callbacks.OnlyLook)
    (undisturbed : Undisturbed before) (list : Handle Sequence) :
    Ends (Sequence.convertToOrderedSet callbacks list) before (fun _ => Undisturbed)
      (fun _ => Undisturbed) := by
  refine (toOrderedSet_undisturbed looks undisturbed list).bind fun set made told => ?_
  obtain ⟨undisturbed, ⟨kept, there⟩, held, thereToo⟩ := told
  apply Ends.bind_eq (Sequence.state_eq there)
  refine (OrderedSet.change_becomes thereToo _).ends.bind fun _ given told => ?_
  obtain ⟨_, becomes⟩ := told
  -- The set is only given the destructor of the list, which then has none to call.
  have undisturbed := undisturbed.becomes becomes fun natural =>
    (undisturbed set held thereToo natural).of_le becomes.ordinals
  refine (changeList_undisturbed undisturbed (becomes.lists ▸ there) _).ends.bind
    fun _ emptied told => ?_
  obtain ⟨undisturbed, there⟩ := told
  apply Ends.bind_eq rfl
  refine (notify_undisturbed undisturbed list _).bind fun _ notified told => ?_
  obtain ⟨undisturbed, same⟩ := told
  exact (destroy_undisturbed undisturbed (same ▸ there) rfl).bind fun _ _ undisturbed => undisturbed

theorem perform_undisturbed (looks : callbacks.OnlyLook) (undisturbed : Undisturbed before)
    (command : Command)
    (counts : ∀ set, command.set? = some set → ∃ held, Naturally set held before) :
    Ends (perform callbacks command) before (fun _ => Undisturbed) (fun _ => Undisturbed) := by
  -- What a command makes of its own set ascends; all other sets only see more ordinals.
  cases command with
  | compare left right =>
    have judged := compareNatural_judged before.ordinals left right
    exact undisturbed.of_sets_eq rfl judged.extended
  | empty destructor =>
    refine ((OrderedSet.add_becomes _ before).bind fun set after told => Succeeds.of_pure ?_).ends
    exact undisturbed.becomes told.2.2 fun _ => List.Pairwise.nil
  | ofValues values destructor =>
    exact ((ofValues_undisturbed undisturbed values destructor).bind fun set after told =>
      Succeeds.of_pure told.1).ends
  | insert set value =>
    obtain ⟨held, naturally⟩ := counts set rfl
    refine ((OrderedSet.insert_inserts (undisturbed.searchable naturally) value).bind
      fun _ after told => Succeeds.of_pure ?_).ends
    obtain ⟨items, becomes, ascends, _⟩ := told
    exact undisturbed.becomes becomes fun _ => ascends
  | erase set value =>
    obtain ⟨held, naturally⟩ := counts set rfl
    refine ((OrderedSet.erase_erases (undisturbed.searchable naturally) value).bind
      fun _ after told => Succeeds.of_pure ?_).ends
    obtain ⟨items, becomes, ascends, _⟩ := told
    exact undisturbed.becomes becomes fun _ => ascends
  | find set value =>
    obtain ⟨held, naturally⟩ := counts set rfl
    exact ((OrderedSet.find_finds (undisturbed.searchable naturally) value).bind
      fun _ after told => Succeeds.of_pure (undisturbed.advances told.1)).ends
  | contains set value =>
    obtain ⟨held, naturally⟩ := counts set rfl
    exact ((OrderedSet.contains_tells (undisturbed.searchable naturally) value).bind
      fun _ after told => Succeeds.of_pure (undisturbed.advances told.1)).ends
  | toOrderedSet list =>
    exact (toOrderedSet_undisturbed looks undisturbed list).bind fun _ _ told => told.1
  | convertToOrderedSet list =>
    exact (convertToOrderedSet_undisturbed looks undisturbed list).bind fun _ _ kept => kept

end Steps

section Identities

variable {ordinals late : Ordinals} {items result : List Value} {value : Value} {answer : Bool}

theorem ascends_compareNatural (ascends : Ranking.natural.Ascends ordinals items)
    (extended : ordinals ≤ late) :
    items.Pairwise fun low high =>
      (compareNatural late low high).1 < 0 ∧ (compareNatural late low high).2 = late := by
  refine List.Pairwise.imp (fun below => ?_) (ascends.of_le extended)
  exact compareNatural_of_lt below.1 below.2

theorem eq_of_compared (compared : OrderedSet.Compared .natural ordinals items value)
    (identity : value.isIdentity) {item : Value} (member : item ∈ items)
    (equal : ordinals.order value item = .eq) : value = item :=
  Ordinals.eq_of_order_eq (compared item member).symm identity equal

theorem equalTo_eq_of_compared (compared : OrderedSet.Compared .natural ordinals items value)
    (identity : value.isIdentity) :
    equalTo (Ranking.natural.order ordinals) value items =
      if value ∈ items then some value else none := by
  cases held : equalTo (Ranking.natural.order ordinals) value items with
  | none =>
    have unequal := equalTo_eq_none.1 held
    rw [if_neg fun member => unequal value member ReflCmp.compare_self]
  | some item =>
    obtain ⟨member, equal⟩ := equalTo_eq_some held
    obtain rfl := eq_of_compared compared identity member equal
    rw [if_pos member]

theorem erased_identity (ascends : Ranking.natural.Ascends ordinals items)
    (compared : OrderedSet.Compared .natural ordinals items value) (identity : value.isIdentity)
    (erased : Erased (Ranking.natural.order ordinals) value items answer result) :
    result = items.filter (· ≠ value) := by
  rw [erased.result_eq ascends.strict]
  refine List.filter_congr fun item member => ?_
  by_cases same : item = value
  · subst same
    have equal : Ranking.natural.order ordinals item item = .eq := ReflCmp.compare_self
    simp [equal]
  · have unequal : Ranking.natural.order ordinals value item ≠ .eq := fun equal =>
      same (eq_of_compared compared identity member equal).symm
    simp [same, unequal]

theorem inserted_identity (compared : OrderedSet.Compared .natural ordinals items value)
    (identity : value.isIdentity)
    (inserted : Inserted (Ranking.natural.order ordinals) value items answer result) :
    items.Sublist result ∧ ∀ item, item ∈ result ↔ item ∈ items ∨ item = value := by
  cases inserted with
  | kept member equal =>
    obtain rfl := eq_of_compared compared identity member equal
    refine ⟨.refl items, fun item => ⟨.inl, fun told => ?_⟩⟩
    exact told.elim id fun same => same ▸ member
  | added whole absent =>
    subst whole
    refine ⟨List.Sublist.append (.refl _) (List.sublist_cons_self _ _), fun item => ?_⟩
    simp only [List.mem_append, List.mem_cons]
    grind

end Identities

section Runs

variable {callbacks : Callbacks Outside} {outside : Outside}
  {history : List (Event Command Answer)} {final : State Outside}

theorem runs_undisturbed (looks : callbacks.OnlyLook)
    (run : (usage callbacks).Runs ⟨{}, {}, outside⟩ history final) : Undisturbed final := by
  refine run.keeps (fun _ => Undisturbed) ?_ ?_ ?_
  · intro set held there
    simp [Table.cell?] at there
  · intro history before command outcome after undisturbed done counts
    rcases (perform_undisturbed looks undisturbed command counts).attempt with
      ⟨_, _, ended, undisturbed⟩ | ⟨_, _, ended, undisturbed⟩ <;>
    · obtain ⟨rfl, rfl⟩ := Prod.mk.inj (done.symm.trans ended)
      exact undisturbed
  · intro history before after undisturbed meanwhile set held there natural
    rcases meanwhile.2 set held there natural with nothing | ⟨earlier, thereBefore, alike, same⟩
    · rw [nothing]
      exact List.Pairwise.nil
    · rw [same]
      exact (undisturbed set earlier thereBefore alike).of_le meanwhile.1

/--
However comparisons, sets in natural order and everything else have been interleaved, each such set
ascends strictly under the ordinals as they are and as they may ever become, without any further
ordinal being handed out; and an identity is found, inserted and erased exactly as it is held.
-/
theorem identities_decide (looks : callbacks.OnlyLook)
    (run : (usage callbacks).Runs ⟨{}, {}, outside⟩ history final) {set : Handle OrderedSet}
    {held : OrderedSet} (there : final.containers.sets.cell? set = some held)
    (natural : held.comparator = none) :
    (∀ late, final.ordinals ≤ late → held.items.toList.Pairwise fun low high =>
      (compareNatural late low high).1 < 0 ∧ (compareNatural late low high).2 = late) ∧
      ∀ value, value.isIdentity → held.items.size ≤ 1 <<< 31 →
        Succeeds (OrderedSet.contains callbacks set value) final (fun answer after =>
            answer = decide (value ∈ held.items.toList) ∧ after.containers = final.containers) ∧
          Succeeds (OrderedSet.find callbacks set value) final (fun answer after =>
            answer = (if value ∈ held.items.toList then value else .undefined) ∧
              after.containers = final.containers) ∧
          Succeeds (OrderedSet.erase callbacks set value) final (fun answer after =>
            answer = decide (value ∈ held.items.toList) ∧ ∃ items : Array Value,
              after.containers.sets.cell? set = some { held with items } ∧
                items.toList = held.items.toList.filter (· ≠ value)) ∧
          Succeeds (OrderedSet.insert callbacks set value) final (fun answer after =>
            answer = decide (value ∉ held.items.toList) ∧ ∃ items : Array Value,
              after.containers.sets.cell? set = some { held with items } ∧
                held.items.toList.Sublist items.toList ∧
                  ∀ item, item ∈ items.toList ↔ item ∈ held.items.toList ∨ item = value) := by
  have undisturbed := runs_undisturbed looks run
  have ascends := undisturbed set held there natural
  refine ⟨fun late extended => ascends_compareNatural ascends extended, fun value identity fits => ?_⟩
  have searchable : OrderedSet.Searchable callbacks .natural set held final :=
    undisturbed.searchable ⟨there, natural, fits⟩
  refine ⟨?_, ?_, ?_, ?_⟩
  · refine (OrderedSet.contains_tells searchable value).imp fun answer after told => ?_
    obtain ⟨advances, compared, rfl⟩ := told
    refine ⟨?_, advances.containers⟩
    rw [equalTo_eq_of_compared compared identity]
    split <;> simp_all
  · refine (OrderedSet.find_finds searchable value).imp fun answer after told => ?_
    obtain ⟨advances, compared, rfl⟩ := told
    refine ⟨?_, advances.containers⟩
    rw [equalTo_eq_of_compared compared identity]
    split <;> rfl
  · refine (OrderedSet.erase_erases searchable value).imp fun answer after told => ?_
    obtain ⟨items, becomes, _, compared, erased⟩ := told
    refine ⟨?_, items, becomes.there, ?_⟩
    · rw [erased.answer_eq, equalTo_eq_of_compared compared identity]
      split <;> simp_all
    · exact erased_identity (ascends.of_le becomes.ordinals) compared identity erased
  · refine (OrderedSet.insert_inserts searchable value).imp fun answer after told => ?_
    obtain ⟨items, becomes, _, compared, inserted⟩ := told
    refine ⟨?_, items, becomes.there, inserted_identity compared identity inserted⟩
    rw [inserted.answer_eq, equalTo_eq_of_compared compared identity]
    split <;> simp_all

end Runs

theorem identities_decide_after_insertion :
    let callbacks := Script.callbacks fun _ => return []
    let told := (usage callbacks).carryOut [.empty none, .insert ⟨0⟩ (.symbol 3),
      .insert ⟨0⟩ (.object 5), .compare (.object 8) (.object 2), .insert ⟨0⟩ (.object 2),
      .compare (.symbol 1) (.symbol 3), .insert ⟨0⟩ (.symbol 1), .insert ⟨0⟩ (.object 8),
      .erase ⟨0⟩ (.object 5)] ⟨{}, {}, {}⟩
    (usage callbacks).Runs ⟨{}, {}, {}⟩ told.1 told.2 ∧
      told.1.map (·.outcome) = [.ok (.set ⟨0⟩), .ok (.flag true), .ok (.flag true), .ok (.sign (-1)),
        .ok (.flag true), .ok (.sign (-1)), .ok (.flag true), .ok (.flag true), .ok (.flag true)] ∧
      ∃ items, told.2.containers.sets.cell? ⟨0⟩ = some { items } ∧
        items.toList = [.symbol 1, .symbol 3, .object 8, .object 2] ∧
        (items.toList.Pairwise fun low high => (compareNatural told.2.ordinals low high).1 < 0 ∧
          (compareNatural told.2.ordinals low high).2 = told.2.ordinals) ∧
        Succeeds (OrderedSet.find callbacks ⟨0⟩ (.object 8)) told.2 (fun answer after =>
          answer = .object 8 ∧ after.containers = told.2.containers) ∧
        Succeeds (OrderedSet.contains callbacks ⟨0⟩ (.object 5)) told.2 (fun answer after =>
          answer = false ∧ after.containers = told.2.containers) := by
  intro callbacks told
  have run : (usage callbacks).Runs ⟨{}, {}, {}⟩ told.1 told.2 :=
    Usage.runs_carryOut (by decide +kernel)
  have there : told.2.containers.sets.cell? ⟨0⟩ =
      some { items := #[.symbol 1, .symbol 3, .object 8, .object 2] } := by
    decide +kernel
  obtain ⟨ascends, decides⟩ := identities_decide (Script.callbacks_onlyLook _) run there rfl
  obtain ⟨_, finding, _⟩ := decides (.object 8) rfl (by decide)
  obtain ⟨containing, _⟩ := decides (.object 5) rfl (by decide)
  refine ⟨run, by decide +kernel, _, there, rfl, ascends _ (Ordinals.le_refl _), ?_, ?_⟩
  next => exact finding.imp fun answer after told => ⟨told.1.trans (by decide), told.2⟩
  next => exact containing.imp fun answer after told => ⟨told.1.trans (by decide), told.2⟩

end Collections.NaturalSets
