import Mathlib
import Collections.Proofs.OrderedSet.Membership
import Collections.Proofs.OrderedSet.NaturalSets
import Collections.Proofs.Runs.Handover

set_option autoImplicit false

namespace Collections

open Sequence Std

variable {Outside : Type}

/--
Every position goes to one of two results, in order: to the first if its value is chosen, else to the
second. Merged by the positions, the two are all there was.
-/
def SharedOut (values : List Value) (chosen : Value → Prop) (included excluded : List Value) : Prop :=
  ∃ here there : List (Value × Nat), here.map Prod.fst = included ∧ there.map Prod.fst = excluded ∧
    here.Sublist values.zipIdx ∧ there.Sublist values.zipIdx ∧ (here ++ there).Perm values.zipIdx ∧
      (∀ entry ∈ here, chosen entry.1) ∧ (∀ entry ∈ there, ¬ chosen entry.1) ∧
        List.merge here there (fun left right => left.2 ≤ right.2) = values.zipIdx

section Values

variable {values included excluded : List Value} {chosen : Value → Prop} {choose : Value → Bool}

theorem zipIdx_ascends (values : List Value) :
    values.zipIdx.Pairwise fun left right => left.2 < right.2 := by
  rw [← List.pairwise_map, List.zipIdx_map_snd]
  exact List.pairwise_lt_range'

theorem merge_eq_zipIdx {here there : List (Value × Nat)} (hereIn : here.Sublist values.zipIdx)
    (thereIn : there.Sublist values.zipIdx) (whole : (here ++ there).Perm values.zipIdx) :
    List.merge here there (fun left right => left.2 ≤ right.2) = values.zipIdx := by
  have ascends {entries : List (Value × Nat)} (within : entries.Sublist values.zipIdx) :
      entries.Pairwise fun left right => decide (left.2 ≤ right.2) = true :=
    ((zipIdx_ascends values).sublist within).imp fun below => decide_eq_true (Nat.le_of_lt below)
  have merged := (List.merge_perm_append fun left right : Value × Nat => left.2 ≤ right.2).trans whole
  -- Two entries of one position are one entry.
  refine List.Perm.eq_of_pairwise (fun left right leftIn rightIn low high => ?_)
    (List.pairwise_merge (by simp; omega) (by simp; omega) here there (ascends hereIn) (ascends thereIn))
    (ascends (.refl _)) merged
  have same : left.2 = right.2 := Nat.le_antisymm (of_decide_eq_true low) (of_decide_eq_true high)
  have first := List.mem_zipIdx_iff_getElem?.1 (merged.subset leftIn)
  rw [same, List.mem_zipIdx_iff_getElem?.1 rightIn] at first
  exact Prod.ext (Option.some.inj first).symm same

theorem sharedOut_filter (decides : ∀ value, choose value = true ↔ chosen value) (values : List Value) :
    SharedOut values chosen (values.filter choose) (values.filter fun value => !choose value) := by
  let picks (entry : Value × Nat) := choose entry.1
  have picked (pick : Value → Bool) :
      (values.zipIdx.filter fun entry => pick entry.1).map Prod.fst = values.filter pick := by
    conv_rhs => rw [← List.zipIdx_map_fst 0 values, List.filter_map]
    rfl
  have whole := List.filter_append_perm picks values.zipIdx
  refine ⟨_, _, picked choose, picked fun value => !choose value, List.filter_sublist,
    List.filter_sublist, whole, fun entry member => ?_, fun entry member => ?_,
    merge_eq_zipIdx List.filter_sublist List.filter_sublist whole⟩
  · exact (decides _).1 (List.mem_filter.1 member).2
  · have left := (List.mem_filter.1 member).2
    rw [← decides]
    simpa using left

theorem SharedOut.eq_filter (shared : SharedOut values chosen included excluded)
    (decides : ∀ value ∈ values, choose value = true ↔ chosen value) :
    included = values.filter choose ∧ excluded = values.filter fun value => !choose value := by
  obtain ⟨here, there, rfl, rfl, hereIn, thereIn, whole, fits, fails, _⟩ := shared
  have held {entry : Value × Nat} (member : entry ∈ values.zipIdx) : entry.1 ∈ values :=
    List.fst_mem_of_mem_zipIdx member
  have picked (pick : Value → Bool) {entries others : List (Value × Nat)}
      (within : entries.Sublist values.zipIdx) (whole : (entries ++ others).Perm values.zipIdx)
      (all : ∀ entry ∈ entries, pick entry.1 = true) (none : ∀ entry ∈ others, ¬ pick entry.1 = true) :
      entries.map Prod.fst = values.filter pick := by
    have kept : entries.filter (fun entry => pick entry.1) = entries := List.filter_eq_self.2 all
    have gone : others.filter (fun entry => pick entry.1) = [] := List.filter_eq_nil_iff.2 none
    have part := within.filter fun entry => pick entry.1
    have same := (whole.filter fun entry => pick entry.1).length_eq
    rw [List.filter_append, kept, gone, List.append_nil] at same
    rw [kept] at part
    rw [part.eq_of_length same]
    conv_rhs => rw [← List.zipIdx_map_fst 0 values, List.filter_map]
    rfl
  have hereFits (entry : Value × Nat) (member : entry ∈ here) : choose entry.1 = true :=
    (decides _ (held (hereIn.subset member))).2 (fits entry member)
  have thereFails (entry : Value × Nat) (member : entry ∈ there) : ¬ choose entry.1 = true :=
    fun chose => fails entry member ((decides _ (held (thereIn.subset member))).1 chose)
  refine ⟨picked choose hereIn whole hereFits thereFails, ?_⟩
  refine picked (fun value => !choose value) thereIn (List.perm_append_comm.trans whole) ?_ ?_
  · exact fun entry member => by simpa using thereFails entry member
  · exact fun entry member => by simpa using hereFits entry member

end Values

structure Sequence.Picked (held : Sequence) (chosen : Value → Prop) (before : State Outside)
    (made : Handle Sequence) (after : State Outside) : Prop where
  fresh : before.containers.lists.cell? made = none
  touches : before.TouchesOnly made after
  shows : ∀ choose : Value → Bool, (∀ value ∈ held.elements, choose value = true ↔ chosen value) →
    Showing made (held.elements.filter choose) after

theorem State.TouchesOnly.intact {before after : State Outside} {made : Handle Sequence}
    (touches : before.TouchesOnly made after) (fresh : before.containers.lists.cell? made = none) :
    before.Intact after := by
  refine ⟨fun list held there => ?_, fun set held there => touches.sets ▸ there⟩
  rw [touches.others list, there]
  rintro rfl
  cases fresh.symm.trans there

section Filtering

variable {surroundings : Surroundings Outside} {members : Members} {present : Value → Prop}
  {ready : State Outside → Prop} {list : Handle Sequence} {held : Sequence} {before : State Outside}

/--
Asked of any value the members tell whether it is present, and are then ready to be asked again; they stay
so while a list changes.
-/
structure Surroundings.Tells (surroundings : Surroundings Outside) (members : Members)
    (present : Value → Prop) (ready : State Outside → Prop) : Prop where
  answers : ∀ value early, ready early →
    Succeeds (isAmong surroundings members value) early fun answer late =>
      late.containers = early.containers ∧ ready late ∧ (answer = true ↔ present value)
  stays : ∀ list early late, ready early → early.ChangesOnly surroundings.toCallbacks list late →
    ready late

def Members.chosen (present : Value → Prop) (value : Value) : Prop :=
  value.isNull = false ∧ present value

theorem Surroundings.Tells.isMember (tells : surroundings.Tells members present ready) (value : Value)
    (start : ready before) :
    Succeeds (Sequence.isMember (isAmong surroundings members) value) before fun verdict after =>
      after.containers = before.containers ∧ ready after ∧
        (verdict = true ↔ Members.chosen present value) := by
  unfold Sequence.isMember Members.chosen
  split
  next null => exact Succeeds.of_pure ⟨rfl, start, by simp [null]⟩
  next full => simpa [full] using tells.answers value before start

theorem filter_picks {test : Value → Action Outside Bool} {chosen : Value → Prop}
    (stays : ∀ list early late, ready early → early.ChangesOnly surroundings.toCallbacks list late →
      ready late)
    (judges : ∀ value early, ready early → Succeeds (test value) early fun verdict late =>
      late.containers = early.containers ∧ ready late ∧ (verdict = true ↔ chosen value))
    (there : before.containers.lists.cell? list = some held) (live : held.destroyed = false)
    (start : ready before) :
    Succeeds (Sequence.filter surroundings.toCallbacks list test) before fun made after =>
      ready after ∧ held.Picked chosen before made after := by
  classical
  let judged (passed kept : List Value) (state : State Outside) :=
    ready state ∧ kept = passed.filter fun value => chosen value
  refine (filter_judges judged ?_ ?_ there live ⟨start, rfl⟩).imp ?_
  · rintro passed kept value early ⟨ready, rfl⟩
    refine (judges value early ready).imp fun verdict late told => ?_
    obtain ⟨same, more, decides⟩ := told
    have verdict_eq : verdict = decide (chosen value) :=
      Bool.eq_iff_iff.2 (decides.trans decide_eq_true_iff.symm)
    exact ⟨same, more, by rw [List.filter_append, verdict_eq, List.filter_cons, List.filter_nil]⟩
  · rintro passed kept early late ⟨ready, keeps⟩ changes
    exact ⟨stays _ early late ready changes, keeps⟩
  · rintro made after ⟨rfl, touches, kept, ⟨more, rfl⟩, shows⟩
    refine ⟨more, by simp [Table.cell?], touches, fun choose decides => ?_⟩
    have same : held.elements.filter choose = held.elements.filter fun value => chosen value :=
      List.filter_congr fun value member =>
        Bool.eq_iff_iff.2 ((decides value member).trans decide_eq_true_iff.symm)
    exact same ▸ shows

variable (tells : surroundings.Tells members present ready)
  (there : before.containers.lists.cell? list = some held) (live : held.destroyed = false)
  (start : ready before)

include tells there live start

theorem filterMembers_picks :
    Succeeds (perform surroundings (.filterMembers list members)) before fun answer after =>
      ready after ∧ ∃ made, answer = .list made ∧
        held.Picked (Members.chosen present) before made after :=
  (filter_picks tells.stays (fun value _ more => tells.isMember value more) there live start).bind
    fun made _ told => Succeeds.of_pure ⟨told.1, made, rfl, told.2⟩

theorem filterOthers_picks :
    Succeeds (perform surroundings (.filterOthers list members)) before fun answer after =>
      ready after ∧ ∃ made, answer = .list made ∧
        held.Picked (fun value => ¬ Members.chosen present value) before made after := by
  refine (filter_picks tells.stays (fun value _ more => ?_) there live start).bind
    fun made _ told => Succeeds.of_pure ⟨told.1, made, rfl, told.2⟩
  refine (tells.isMember value more).bind fun verdict late told => Succeeds.of_pure ?_
  obtain ⟨same, more, decides⟩ := told
  exact ⟨same, more, by rw [← decides]; cases verdict <;> simp⟩

end Filtering

section Sharing

variable {surroundings : Surroundings Outside} {members : Members} {present : Value → Prop}
  {list : Handle Sequence} {held : Sequence} {before middle after : State Outside}

inductive OrderedSet.Comes (callbacks : Callbacks Outside) (comparator : ComparatorId)
    (set : Handle OrderedSet) (start : State Outside) : Prop where
  | created {destructor : Option String} {creation : OrderedSet.Creation} {early : State Outside}
      (made : OrderedSet.create callbacks comparator destructor creation early = .ok set start)
  | sorted {list : Handle Sequence} {elements : List Value} {early : State Outside}
      (copies : callbacks.CopyPlainStorages) (showing : Showing list elements early)
      (made : Sequence.toOrderedSet callbacks list (some comparator) early = .ok set start)

theorem OrderedSet.Comes.keeps {callbacks : Callbacks Outside} {comparator : ComparatorId}
    {order : Value → Value → Ordering} [TransCmp order] {set : Handle OrderedSet}
    {start : State Outside} (compares : callbacks.Compares comparator order)
    (comes : OrderedSet.Comes callbacks comparator set start) :
    ∃ deeds, OrderedSet.Keeps set comparator order deeds start := by
  cases comes with
  | @created destructor creation early made =>
    obtain ⟨_, _, answered, keeps⟩ := OrderedSet.create_keeps compares creation destructor early
    cases made.symm.trans answered
    exact ⟨_, keeps⟩
  | @sorted list elements early copies showing made =>
    obtain ⟨_, _, answered, items, holding, strict, keeps⟩ :=
      OrderedSet.toOrderedSet_keeps compares copies showing
    cases made.symm.trans answered
    refine ⟨(OrderedSet.Creation.ofValues elements).deeds, items, holding, strict, fun value => ?_⟩
    rw [keeps, OrderedSet.representative_creation]

/--
What makes values present for members: to be in the class of an item of a set, or alike to a member of a
native set. A set has been used only as it may be used, by itself or among all that are in natural order.
-/
inductive Surroundings.Decides (surroundings : Surroundings Outside) (state : State Outside) :
    Members → (Value → Prop) → Prop where
  | natural {outside : Outside} {history : List (Event NaturalSets.Command NaturalSets.Answer)}
      {set : Handle OrderedSet} {cell : OrderedSet} (looks : surroundings.toCallbacks.OnlyLook)
      (run : (NaturalSets.usage surroundings.toCallbacks).Runs ⟨{}, {}, outside⟩ history state)
      (naturally : NaturalSets.Naturally set cell state) :
      surroundings.Decides state (.set set) fun value => ∃ item ∈ cell.items.toList, value.Level item
  | ranked {comparator : ComparatorId} {order : Value → Value → Ordering} [TransCmp order]
      {start : State Outside} {history : List (Event OrderedSet.Request OrderedSet.Answer)}
      {set : Handle OrderedSet} {items : List Value}
      (compares : surroundings.toCallbacks.Compares comparator order)
      (keep : surroundings.toCallbacks.KeepComparators)
      (comes : OrderedSet.Comes surroundings.toCallbacks comparator set start)
      (run : (OrderedSet.usage surroundings.toCallbacks set).Runs start history state)
      (holding : OrderedSet.Holding set comparator items state) (fits : items.length ≤ 1 <<< 31) :
      surroundings.Decides state (.set set) fun value => ∃ item ∈ items, order value item = .eq
  | native (values : List Value) :
      surroundings.Decides state (.among values) fun value => ∃ member ∈ values, member.alike value = true

theorem OrderedSet.Searchable.tells {ranking : Ranking} {same : Value → Value → Prop}
    {set : Handle OrderedSet} (cell : OrderedSet) (classes : ranking.Classes same) :
    surroundings.Tells (.set set) (fun value => ∃ item ∈ cell.items.toList, same value item)
      (OrderedSet.Searchable surroundings.toCallbacks ranking set cell) where
  answers value _ searchable :=
    (OrderedSet.contains_decides searchable classes value).imp fun _ _ told =>
      ⟨told.1.containers, searchable.advances told.1, told.2⟩
  stays _ _ _ searchable changes :=
    ⟨changes.sets ▸ searchable.there, searchable.ranks, changes.ordinals ▸ searchable.ascends,
      searchable.fits⟩

theorem Surroundings.tells_native (surroundings : Surroundings Outside) (values : List Value) :
    surroundings.Tells (.among values) (fun value => ∃ member ∈ values, member.alike value = true)
      fun _ => True where
  answers _ _ _ := Succeeds.of_pure ⟨rfl, trivial, List.any_eq_true⟩
  stays _ _ _ _ _ := trivial

theorem Surroundings.Decides.tells (decides : surroundings.Decides before members present) :
    ∃ ready : State Outside → Prop, surroundings.Tells members present ready ∧ ready before := by
  cases decides with
  | natural looks run naturally =>
    have undisturbed := NaturalSets.runs_undisturbed looks run
    exact ⟨_, OrderedSet.Searchable.tells _ Ranking.natural_classes, undisturbed.searchable naturally⟩
  | @ranked comparator order _ start history set items compares keep comes run holding fits =>
    obtain ⟨_, initially⟩ := comes.keeps compares
    obtain ⟨others, ⟨other, thereToo, _, rfl⟩, strict, _⟩ :=
      OrderedSet.runs_keep compares keep initially run
    obtain ⟨cell, there, same, rfl⟩ := holding
    cases there.symm.trans thereToo
    exact ⟨_, OrderedSet.Searchable.tells _ (Ranking.constant_classes order),
      OrderedSet.Holding.searchable compares there same strict fits⟩
  | native values => exact ⟨_, surroundings.tells_native values, trivial⟩

structure State.SharesOut (before : State Outside) (held : Sequence) (chosen : Value → Prop)
    (included excluded : Handle Sequence) (after : State Outside) : Prop where
  apart : included ≠ excluded
  shared : ∃ kept others, Showing included kept after ∧ Showing excluded others after ∧
    SharedOut held.elements chosen kept others
  intact : before.Intact after
  sets : after.containers.sets = before.containers.sets

namespace Sequence.Picked

variable {chosen also : Value → Prop} {first second : Handle Sequence}

theorem ne (early : held.Picked chosen before first middle) (late : held.Picked also middle second after) :
    first ≠ second := by
  classical
  rintro rfl
  obtain ⟨cell, there, _⟩ := early.shows (fun value => chosen value) fun _ _ => decide_eq_true_iff
  cases late.fresh.symm.trans there

theorem shows_after (early : held.Picked chosen before first middle)
    (late : held.Picked also middle second after) {choose : Value → Bool}
    (decides : ∀ value ∈ held.elements, choose value = true ↔ chosen value) :
    Showing first (held.elements.filter choose) after := by
  obtain ⟨cell, there, shows⟩ := early.shows choose decides
  exact ⟨cell, (late.touches.others first (early.ne late)).trans there, shows⟩

theorem intact (early : held.Picked chosen before first middle)
    (late : held.Picked also middle second after) :
    before.Intact after ∧ after.containers.sets = before.containers.sets :=
  ⟨(early.touches.intact early.fresh).trans (late.touches.intact late.fresh),
    late.touches.sets.trans early.touches.sets⟩

end Sequence.Picked

theorem sharesOut_of_shows {chosen : Value → Prop} {included excluded : Handle Sequence}
    (apart : included ≠ excluded)
    (same : before.Intact after ∧ after.containers.sets = before.containers.sets)
    (shows : ∀ choose : Value → Bool, (∀ value ∈ held.elements, choose value = true ↔ chosen value) →
      Showing included (held.elements.filter choose) after)
    (leaves : ∀ choose : Value → Bool, (∀ value ∈ held.elements, choose value = true ↔ ¬ chosen value) →
      Showing excluded (held.elements.filter choose) after) :
    before.SharesOut held chosen included excluded after := by
  classical
  have decides (value : Value) : decide (chosen value) = true ↔ chosen value := decide_eq_true_iff
  exact ⟨apart, ⟨_, _, shows _ fun value _ => decides value, leaves _ fun value _ => by simp,
    sharedOut_filter decides held.elements⟩, same.1, same.2⟩

/--
The two filters by membership share out a live list, in whichever order they are called: an element comes
to the one result if it is not null and present, and else to the other, and list and set stay as they are.
-/
theorem filters_share_list_out (decides : surroundings.Decides before members present)
    (there : before.containers.lists.cell? list = some held) (live : held.destroyed = false) :
    Succeeds (do
        let included ← perform surroundings (.filterMembers list members)
        let excluded ← perform surroundings (.filterOthers list members)
        return (included, excluded)) before (fun answers after => ∃ included excluded,
          answers = (.list included, .list excluded) ∧
            before.SharesOut held (fun value => value.isNull = false ∧ present value) included excluded
              after) ∧
      Succeeds (do
        let excluded ← perform surroundings (.filterOthers list members)
        let included ← perform surroundings (.filterMembers list members)
        return (included, excluded)) before (fun answers after => ∃ included excluded,
          answers = (.list included, .list excluded) ∧
            before.SharesOut held (fun value => value.isNull = false ∧ present value) included excluded
              after) := by
  obtain ⟨ready, tells, start⟩ := decides.tells
  constructor
  next =>
    refine (filterMembers_picks tells there live start).bind fun _ middle told => ?_
    obtain ⟨more, included, rfl, early⟩ := told
    have there := (early.touches.intact early.fresh).lists list held there
    refine (filterOthers_picks tells there live more).bind fun _ after told => Succeeds.of_pure ?_
    obtain ⟨_, excluded, rfl, late⟩ := told
    exact ⟨included, excluded, rfl, sharesOut_of_shows (early.ne late) (early.intact late)
      (fun _ => early.shows_after late) late.shows⟩
  next =>
    refine (filterOthers_picks tells there live start).bind fun _ middle told => ?_
    obtain ⟨more, excluded, rfl, early⟩ := told
    have there := (early.touches.intact early.fresh).lists list held there
    refine (filterMembers_picks tells there live more).bind fun _ after told => Succeeds.of_pure ?_
    obtain ⟨_, included, rfl, late⟩ := told
    exact ⟨included, excluded, rfl, sharesOut_of_shows (early.ne late).symm (early.intact late)
      late.shows fun _ => early.shows_after late⟩

end Sharing

theorem filters_share_list_out_with_null :
    let surroundings : Surroundings Diary :=
      { Callbacks.plain Diary fun _ => compareOn Value.rank with test := fun _ _ => return true }
    let listed : Sequence := {
      storage := { slots := #[some (.object 4), some .null, some .undefined, some (.object 3)] }
      length := 4 }
    let made := (attempt (NaturalSets.perform surroundings.toCallbacks
      (.ofValues [.object 3, .null, .undefined] none)) ⟨{}, {}, {}⟩).2
    let start := made.withLists ⟨#[listed]⟩
    Succeeds (do
      let included ← perform surroundings (.filterMembers ⟨0⟩ (.set ⟨0⟩))
      let excluded ← perform surroundings (.filterOthers ⟨0⟩ (.set ⟨0⟩))
      return (included, excluded)) start fun answers after => ∃ included excluded,
        answers = (.list included, .list excluded) ∧ Showing included [.undefined, .object 3] after ∧
          Showing excluded [.object 4, .null] after := by
  intro surroundings listed made start
  have looks : surroundings.toCallbacks.OnlyLook := ⟨fun _ _ => .of_pure _, fun _ _ => .of_pure ()⟩
  have facts : (made.containers.sets.cell? ⟨0⟩).map (fun cell => (cell.comparator, cell.items.toList)) =
      some (none, [.undefined, .null, .object 3]) := by
    simp only [made, surroundings]
    cbv
  obtain ⟨cell, there, same⟩ := Option.map_eq_some_iff.1 facts
  obtain ⟨natural, items⟩ := Prod.mk.inj same
  have counts (set : Handle OrderedSet)
      (named : (NaturalSets.Command.ofValues [.object 3, .null, .undefined] none).set? = some set) :
      ∃ held, NaturalSets.Naturally set held (⟨{}, {}, {}⟩ : State Diary) := by
    cases named
  have created : (NaturalSets.usage surroundings.toCallbacks).Runs ⟨{}, {}, {}⟩ _ made :=
    Usage.Runs.start.command rfl counts
  have run : (NaturalSets.usage surroundings.toCallbacks).Runs ⟨{}, {}, {}⟩ _ start :=
    created.between ⟨Ordinals.le_refl _, fun set held there natural => .inr ⟨held, there, natural, rfl⟩⟩
  have naturally : NaturalSets.Naturally ⟨0⟩ cell start :=
    ⟨there, natural, by rw [← Array.length_toList, items]; decide⟩
  have there : start.containers.lists.cell? ⟨0⟩ = some listed := rfl
  refine (filters_share_list_out (.natural looks run naturally) there rfl).1.imp fun answers after told => ?_
  obtain ⟨included, excluded, rfl, shares⟩ := told
  obtain ⟨kept, others, shown, left, shared⟩ := shares.shared
  let choose (value : Value) : Bool :=
    !value.isNull && [.undefined, .null, .object 3].any value.coincides
  have decides (value : Value) (_ : value ∈ listed.elements) : choose value = true ↔
      value.isNull = false ∧ ∃ item ∈ cell.items.toList, value.Level item := by
    simp only [choose, Bool.and_eq_true, Bool.not_eq_true', List.any_eq_true, items]
    exact and_congr_right fun _ => exists_congr fun item => and_congr_right fun _ =>
      value.coincides_iff_level item
  obtain ⟨rfl, rfl⟩ := shared.eq_filter decides
  exact ⟨included, excluded, rfl, shown, left⟩

end Collections
