import Collections.Proofs.OrderedSet.Building
import Collections.Proofs.OrderedSet.Editing
import Collections.Proofs.Runs.Failing

set_option autoImplicit false

namespace Collections

variable {Outside : Type}

def Containers.SetsFit (held : Containers) : Prop :=
  ∀ set cell, held.sets.cell? set = some cell → cell.items.size ≤ 1 <<< 31

theorem OnlyAdvances.keeps_ascending {α : Type} {ranking : Ranking}
    {comparator : Option ComparatorId} {action : Action Outside α} (advances : OnlyAdvances action) :
    Keeps (ranking.SetsAscend comparator) action :=
  fun before ascend => (advances before).imp (fun _ _ told => ascend.advances told)
    fun _ _ told => ascend.advances told

namespace OrderedSet

variable {surroundings : Surroundings Outside} {comparator : Option ComparatorId}
  {ranking : Ranking} {before : State Outside}

theorem locate_apart (quiet : surroundings.Quiet) {set : Handle OrderedSet}
    (apart : ∀ held, before.containers.sets.cell? set = some held → held.comparator ≠ comparator)
    (ascend : ranking.SetsAscend comparator before) (value : Value) :
    Ends (locate surroundings.toCallbacks set value) before
      (fun _ middle => ranking.SetsAscend comparator middle ∧
        ∀ step : OrderedSet → OrderedSet, (∀ held, (step held).comparator = held.comparator) →
          Ends (change set step : Action Outside Unit) middle
            (fun _ => ranking.SetsAscend comparator) fun _ => ranking.SetsAscend comparator)
      fun _ => ranking.SetsAscend comparator := by
  refine (locate_advances quiet set value before).imp (fun _ middle advances => ?_)
    fun _ _ advances => ascend.advances advances
  have ascend := ascend.advances advances
  refine ⟨ascend, fun step same => ascend.modify fun held there compares => ?_⟩
  exact (apart held (advances.containers ▸ there) ((same held).symm.trans compares)).elim

variable (ranks : surroundings.toCallbacks.Ranks comparator ranking)

include ranks

theorem searchable_or_apart (fits : before.containers.SetsFit)
    (ascend : ranking.SetsAscend comparator before) (set : Handle OrderedSet) :
    (∃ held, Searchable surroundings.toCallbacks ranking set held before) ∨
      ∀ held, before.containers.sets.cell? set = some held → held.comparator ≠ comparator := by
  by_cases ranked : ∃ held, before.containers.sets.cell? set = some held ∧ held.comparator = comparator
  next =>
    obtain ⟨held, there, rfl⟩ := ranked
    exact .inl ⟨held, there, ranks, ascend set held there rfl, fits set held there⟩
  next => exact .inr fun held there compares => ranked ⟨held, there, compares⟩

variable (quiet : surroundings.Quiet)

include quiet

theorem insert_ascends (fits : before.containers.SetsFit)
    (ascend : ranking.SetsAscend comparator before) (set : Handle OrderedSet) (value : Value) :
    Ends (insert surroundings.toCallbacks set value) before
      (fun _ => ranking.SetsAscend comparator) fun _ => ranking.SetsAscend comparator := by
  rcases searchable_or_apart ranks fits ascend set with ⟨held, searchable⟩ | apart
  next =>
    refine ((insert_inserts searchable value).imp fun _ after told => ?_).ends
    obtain ⟨items, becomes, ascends, _⟩ := told
    exact ascend.becomes becomes fun _ => ascends
  next =>
    refine (locate_apart quiet apart ascend value).bind fun location middle told => ?_
    split
    · exact told.1
    · exact (told.2 (·.insertAt location.position value) fun _ => rfl).bind fun _ _ kept => kept

theorem erase_ascends (fits : before.containers.SetsFit)
    (ascend : ranking.SetsAscend comparator before) (set : Handle OrderedSet) (value : Value) :
    Ends (erase surroundings.toCallbacks set value) before
      (fun _ => ranking.SetsAscend comparator) fun _ => ranking.SetsAscend comparator := by
  rcases searchable_or_apart ranks fits ascend set with ⟨held, searchable⟩ | apart
  next =>
    refine ((erase_erases searchable value).imp fun _ after told => ?_).ends
    obtain ⟨items, becomes, ascends, _⟩ := told
    exact ascend.becomes becomes fun _ => ascends
  next =>
    refine (locate_apart quiet apart ascend value).bind fun location middle told => ?_
    split
    · exact (told.2 (·.eraseAt location.position) fun _ => rfl).bind fun _ _ kept => kept
    · exact told.1

end OrderedSet

section Runs

variable {host : Callbacks Diary} {conducts : Conducts} {comparator : Option ComparatorId}
  {ranking : Ranking}

theorem setsAscend_invariant (ordinary : host.Ordinary) :
    Invariant (conducts.quietly host) (fun _ => True) (ranking.SetsAscend comparator) :=
  conducts.unrestricted.invariant ordinary (fun _ _ _ ascend => ascend) (fun _ _ ascend _ => ascend)
    (fun ascend _ => ⟨trivial, ascend⟩) (fun _ _ ascend => ascend)
    (fun {state} left right ascend =>
      ascend.of_sets_eq rfl (compareNatural_judged state.ordinals left right).extended)
    fun _ _ _ _ ascend => ascend

variable (ordinary : host.Ordinary)
  (ranks : (conducts.quietly host).toCallbacks.Ranks comparator ranking)

include ordinary ranks

theorem ofValues_keeps_ascending (values : List Value) (other : Option ComparatorId)
    (destructor : Option String) :
    Keeps (ranking.SetsAscend comparator)
      (OrderedSet.ofValues (conducts.quietly host).toCallbacks values other destructor) := by
  by_cases same : other = comparator
  next =>
    subst same
    intro before ascend
    refine ((OrderedSet.ofValues_ascends ranks values destructor before).imp fun _ after told => ?_).ends
    obtain ⟨_, items, becomes, ascends, _⟩ := told
    exact ascend.becomes becomes fun _ => ascends
  next =>
    refine (setsAscend_invariant ordinary).ofValues values fun items before ascend => ?_
    exact ((OrderedSet.add_becomes _ before).imp fun _ _ told =>
      ascend.becomes told.2.2 fun compares => (same compares).elim).ends

theorem perform_keeps_ascending (operation : Operation) {before : State Diary}
    (fits : before.containers.SetsFit) (ascend : ranking.SetsAscend comparator before) :
    Ends (perform (conducts.quietly host) operation) before
      (fun _ => ranking.SetsAscend comparator) fun _ => ranking.SetsAscend comparator := by
  have quiet : (conducts.quietly host).Quiet := quietly_quiet ordinary
  have frame : Invariant (conducts.quietly host) (fun _ => True) (ranking.SetsAscend comparator) :=
    setsAscend_invariant ordinary
  have makes := ofValues_keeps_ascending ordinary ranks
  have destructs (destructor : String) (value : Value) : Keeps (ranking.SetsAscend comparator)
      ((conducts.quietly host).destruct destructor value) :=
    (quiet.destructs destructor value).keeps_ascending
  by_cases sets : operation.changesSets = false
  next =>
    exact frame.perform_keeps operation (fun _ _ => trivial) (by simp [sets]) (fun _ => destructs)
      before ascend
  next =>
    have gives (set : Handle OrderedSet) (destructor : Option String) :
        Keeps (ranking.SetsAscend comparator)
          (OrderedSet.setDestructor set destructor : Action Diary Unit) :=
      fun before ascend => ascend.modify (ascend set)
    cases operation with
    | toOrderedSet list other =>
      have made := frame.toOrderedSet list fun values => makes values other none
      exact (made before ascend).bind fun _ _ kept => kept
    | convertToOrderedSet list =>
      have made := frame.toOrderedSet list fun values => makes values none none
      exact (frame.trimming.convertToOrderedSet trivial made gives before ascend).bind fun _ _ kept => kept
    | emptySet other destructor =>
      have added : Ends (OrderedSet.empty other destructor) before
          (fun _ => ranking.SetsAscend comparator) fun _ => ranking.SetsAscend comparator :=
        ((OrderedSet.add_becomes { comparator := other, destructor } before).imp fun _ _ told =>
          ascend.becomes told.2.2 fun _ => List.Pairwise.nil).ends
      exact added.bind fun _ _ kept => kept
    | setOf values other destructor =>
      exact (makes values other destructor before ascend).bind fun _ _ kept => kept
    | setOfTraversal traversal other destructor =>
      have visits := frame.visitAll (fun value => .of_pure value) traversal before ascend
      refine (visits.bind fun values middle ascend => ?_).bind fun _ _ kept => kept
      exact makes values.toList other destructor middle ascend
    | insert set value =>
      exact (OrderedSet.insert_ascends ranks quiet fits ascend set value).bind fun _ _ kept => kept
    | erase set value =>
      exact (OrderedSet.erase_ascends ranks quiet fits ascend set value).bind fun _ _ kept => kept
    | setDestructorOfSet set destructor =>
      exact (gives set destructor before ascend).bind fun _ _ kept => kept
    | destroySet set =>
      have clears : Keeps (ranking.SetsAscend comparator)
          (OrderedSet.change set OrderedSet.cleared : Action Diary Unit) := by
        intro before ascend
        apply ascend.modify
        exact fun _ _ _ => List.Pairwise.nil
      exact (Keeps.destroySet destructs set clears before ascend).bind fun _ _ kept => kept
    | _ => exact (sets rfl).elim

end Runs

end Collections
