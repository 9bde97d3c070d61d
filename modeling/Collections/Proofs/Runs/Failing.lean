import Collections.Proofs.Sequence.Conversion
import Collections.Proofs.Sequence.Growth
import Collections.Proofs.Sequence.Shuffling

set_option autoImplicit false

namespace Collections

variable {Outside : Type}

namespace Sequence

variable {callbacks : Callbacks Outside} {list : Handle Sequence} {held : Sequence}
  {before : State Outside}

theorem requireLive_advances (list : Handle Sequence) (operation : ListOperation) :
    OnlyAdvances (requireLive list operation : Action Outside Unit) :=
  .of_keeps fun _ => .requireLive list operation

theorem requireSlot_advances (list : Handle Sequence) (index : Value) :
    OnlyAdvances (requireSlot list index : Action Outside Nat) :=
  .of_keeps fun _ => .requireSlot list index

theorem state_advances (list : Handle Sequence) :
    OnlyAdvances (state list : Action Outside Sequence) :=
  .of_keeps fun _ => .list_state list

theorem change_restores (list : Handle Sequence) (operation : ListOperation)
    (step : Sequence → Sequence) :
    Restores (do
      requireLive list operation
      change list step : Action Outside Unit) :=
  .after (requireLive_advances list operation) fun _ => .of_neverFails (.change list step)

theorem set_restores (list : Handle Sequence) (index value : Value) :
    Restores (set list index value : Action Outside Unit) :=
  .after (requireLive_advances list .set) fun _ => .after (requireSlot_advances list index)
    fun _ => .of_neverFails (.change list _)

theorem remove_restores (list : Handle Sequence) (index : Value) :
    Restores (remove list index : Action Outside Value) :=
  .after (requireLive_advances list .remove) fun _ => .after (requireSlot_advances list index)
    fun slot => .of_neverFails (.takeOut list slot)

theorem pop_restores (list : Handle Sequence) : Restores (pop list : Action Outside Value) :=
  .after (.of_keeps fun _ => .requireElement list .pop) fun _ => .after (state_advances list)
    fun _ => .of_neverFails (.takeOut list _)

theorem removeItem_restores (list : Handle Sequence) (value : Value) :
    Restores (removeItem list value : Action Outside Bool) := by
  refine .after (.of_keeps fun _ => .indexOf list value) fun found => ?_
  split
  next slot => exact .of_neverFails ((NeverFails.takeOut list slot).bind fun _ => .of_pure true)
  next => exact .of_neverFails (.of_pure false)

theorem append_restores (list : Handle Sequence) (value : Value) :
    Restores (append callbacks list value) := by
  refine .after (requireLive_advances list .append) fun _ => .of_neverFails ?_
  have pushes : NeverFails (change list (·.push value) : Action Outside Unit) := .change list _
  intro before
  apply Succeeds.bind_eq rfl
  split
  next =>
    exact ((NeverFails.change list grown).bind fun _ =>
      (NeverFails.notify callbacks list _).bind fun _ => pushes) before
  next => exact pushes before

theorem appendAll_restores (list source : Handle Sequence) :
    Restores (appendAll callbacks list source) := by
  intro before
  refine requireLive_bind (.of_containers_eq rfl) fun held there live => ?_
  split
  next => exact .of_containers_eq rfl
  next =>
    -- Values are appended to a live list, which stays live from one to the next.
    have appends (values : List Value) := appendEach_extends callbacks there live values
    exact Ends.bind_eq rfl ((appends _).imp fun _ _ _ => trivial).ends

end Sequence

section Quiet

variable {surroundings : Surroundings Outside} (quiet : surroundings.Quiet)

include quiet

namespace OrderedSet

theorem locate_advances (set : Handle OrderedSet) (value : Value) :
    OnlyAdvances (locate surroundings.toCallbacks set value) :=
  .of_keeps fun start => (quiet.contract start).locate set value

theorem insert_restores (set : Handle OrderedSet) (value : Value) :
    Restores (insert surroundings.toCallbacks set value) :=
  .after (locate_advances quiet set value) fun _ => .ite (.of_neverFails (.of_pure _))
    (.of_neverFails ((NeverFails.changeSet set _).bind fun _ => .of_pure _))

theorem erase_restores (set : Handle OrderedSet) (value : Value) :
    Restores (erase surroundings.toCallbacks set value) :=
  .after (locate_advances quiet set value) fun _ =>
    .ite (.of_neverFails ((NeverFails.changeSet set _).bind fun _ => .of_pure _))
      (.of_neverFails (.of_pure _))

theorem destroy_restores (set : Handle OrderedSet) :
    Restores (destroy surroundings.toCallbacks set) := by
  have reads : OnlyAdvances (state set : Action Outside OrderedSet) :=
    .of_keeps fun _ => .set_state set
  refine .after reads fun held => ?_
  split
  next destructor _ =>
    refine .after (.of_keeps fun start => ?_) fun _ => .of_neverFails (.changeSet set _)
    refine .visitAll ((Keeps.set_state set).bind fun _ => .of_pure _) fun position => ?_
    exact (Keeps.set_state set).bind fun _ =>
      .ite ((quiet.destructs destructor _).keeps start) (.of_pure _)
  next => exact .of_neverFails (.changeSet set _)

theorem ofValues_ends (values : List Value) (comparator : Option ComparatorId)
    (destructor : Option String) (before : State Outside) :
    Ends (ofValues surroundings.toCallbacks values comparator destructor) before
      (fun set after => after.containers.lists = before.containers.lists ∧
        ∃ made, after.containers.sets.cell? set = some made)
      fun _ => before.Intact := by
  have stage {γ : Type} {action : Action Outside γ} {middle : State Outside}
      (early : before.Advances middle) (advances : OnlyAdvances action) :
      Ends action middle (fun _ => before.Advances) fun _ => before.Intact :=
    (advances.keeps before middle early).imp (fun _ _ same => same)
      fun _ _ same => .of_containers_eq same.containers
  have sorts : OnlyAdvances (StableSort.sort (surroundings.below comparator) values) :=
    .of_keeps fun start => .sort ((quiet.contract start).below comparator) values
  have walks (sorted : List Value) :
      OnlyAdvances (keepDistinct surroundings.toCallbacks comparator #[] sorted) :=
    .of_keeps fun start => (quiet.contract start).keepDistinct comparator sorted #[]
  refine (stage (.refl before) sorts).bind fun sorted middle early => ?_
  refine (stage early (walks sorted)).bind fun items late same => ?_
  refine ((add_becomes _ late).imp fun set after told => ?_).ends
  exact ⟨told.2.2.lists.trans (congrArg Containers.lists same.containers), _, told.2.2.there⟩

end OrderedSet

namespace Sequence

theorem copyOut_advances (list : Handle Sequence) :
    OnlyAdvances (copyOut surroundings.toCallbacks list) :=
  .of_keeps fun start => (quiet.contract start).copyOut list

theorem toOrderedSet_ends (list : Handle Sequence) (comparator : Option ComparatorId)
    (before : State Outside) :
    Ends (toOrderedSet surroundings.toCallbacks list comparator) before
      (fun set after => (after.containers.lists = before.containers.lists ∧
        ∃ made, after.containers.sets.cell? set = some made) ∧
          ∃ held, before.containers.lists.cell? list = some held ∧ held.destroyed = false)
      fun _ => before.Intact := by
  refine requireLive_bind (.of_containers_eq rfl) fun held there live => ?_
  have copies : Ends (copyOut surroundings.toCallbacks list) before
      (fun _ after => after.containers = before.containers) fun _ => before.Intact :=
    (copyOut_advances quiet list before).imp (fun _ _ same => same.containers)
      fun _ _ same => .of_containers_eq same.containers
  refine copies.bind fun copied middle same => ?_
  refine (OrderedSet.ofValues_ends quiet _ comparator none middle).imp ?_ ?_
  next =>
    intro _ after told
    exact ⟨⟨told.1.trans (congrArg Containers.lists same), told.2⟩, held, there, live⟩
  next => exact fun _ _ intact => (State.Intact.of_containers_eq same).trans intact

theorem convertToOrderedSet_restores (list : Handle Sequence) :
    Restores (convertToOrderedSet surroundings.toCallbacks list) := by
  intro before
  refine (toOrderedSet_ends quiet list none before).bind fun set made told => ?_
  obtain ⟨⟨lists, whole, making⟩, held, there, live⟩ := told
  have there : made.containers.lists.cell? list = some held := lists ▸ there
  exact ((handOver_hands there live making).imp fun _ _ _ => trivial).ends

theorem destroy_restores (list : Handle Sequence) :
    Restores (destroy surroundings.toCallbacks list) := by
  refine .after (requireLive_advances list .destroy) fun _ => ?_
  refine .after (state_advances list) fun held => ?_
  have releases : Restores (do
      change list release
      notify surroundings.toCallbacks list (.destroyed held.reportedLength held.destructor.isSome)) :=
    .of_neverFails ((NeverFails.change list release).bind fun _ => .notify _ list _)
  split
  next destructor _ =>
    refine .after (.of_keeps fun start => ?_) fun _ => releases
    exact Contract.destructFrom (fun name value => (quiet.destructs name value).keeps start) list
      destructor 0 held.length
  next => exact releases

theorem sort_restores (ordinary : surroundings.Ordinary) {list : Handle Sequence}
    (comparator : ComparatorId) {before : State Outside}
    (steady : ∀ held, before.containers.lists.cell? list = some held → held.Steady) :
    Ends (sort surroundings.toCallbacks list (some comparator)) before (fun _ _ => True)
      fun _ => before.Intact := by
  refine requireLive_bind (.of_containers_eq rfl) fun held there live => ?_
  refine (copyOut_all ordinary there (steady held there)).ends.bind fun copied copying told => ?_
  obtain ⟨rfl, rfl⟩ := told
  have compares := (quiet.contract copying).below (some comparator)
  have sorts := (StableSort.sort_ends _ (held.elements.map some |>.filterMap id) copying).and
    (Keeps.sort compares _ copying (.refl copying))
  refine (sorts.imp (fun _ _ told => told.1.length_eq) fun _ _ told =>
    .of_containers_eq told.2.containers).bind fun sorted after whole => ?_
  apply Ends.bind_eq rfl
  rw [if_neg (by simp [whole])]
  trivial

end Sequence

end Quiet

section Runs

variable {host : Callbacks Diary} {conducts others : Conducts}

theorem act_advances {α : Type} (conduct : Nat → Conduct α) :
    OnlyAdvances (act (fun _ => noteMoment) conduct) := by
  refine .of_keeps fun start => ?_
  have counts : Keeps start.Advances countCall := fun _ early => ⟨early.containers, early.ordinals⟩
  have notes : Keeps start.Advances noteMoment := fun _ early => ⟨early.containers, early.ordinals⟩
  exact act_keeps counts fun _ => notes

theorem quietly_quiet (ordinary : host.Ordinary) : (others.quietly host).Quiet where
  contract start := {
    orders := fun left right before early =>
      ⟨early.containers, Ordinals.le_trans early.ordinals
        (compareNatural_judged before.ordinals left right).extended⟩
    compares := fun _ _ _ => ((act_advances _).keeps start).bind fun _ => .of_pure _
    tests := fun _ _ => (act_advances _).keeps start
    looks := fun parent name => (ordinary.looks parent name).keeps
    requires := fun copying constructing => (ordinary.requires copying constructing).keeps }
  destructs _ _ := .of_keeps fun start =>
    .bind (fun _ early => ⟨early.containers, early.ordinals⟩) fun _ => (act_advances _).keeps start
  draws _ _ _ := (act_advances _).bind fun drawn => .of_pure (Draw.ofNumber drawn)

theorem quietly_drawsWithin (within : others.DrawsWithin) : (others.quietly host).DrawsWithin := by
  intro source lower upper before
  have answers : Ends (act (fun _ => noteMoment) (others.draw · source lower upper)) before
      (fun drawn _ => ∃ slot length, drawn.toNat? = some slot ∧ upper.toNat? = some length ∧
        slot < length) fun _ _ => True := by
    apply Ends.bind_eq rfl
    apply Ends.bind_eq rfl
    cases outcome : (others.draw before.outside.calls source lower upper).outcome with
    | ok drawn => exact within _ source lower upper drawn outcome
    | error failure => trivial
  refine answers.bind fun drawn _ told => ?_
  obtain ⟨slot, length, told⟩ := told
  exact ⟨drawn, slot, length, rfl, told⟩

theorem quietly_ordinary (ordinary : host.Ordinary) : (others.quietly host).Ordinary :=
  ⟨ordinary.looks, ordinary.requires, ordinary.assigns, ordinary.copies⟩

theorem intact_invariant (ordinary : host.Ordinary) (start : State Diary) :
    Invariant (others.quietly host) (fun list => start.containers.lists.cell? list = none)
      start.Intact := by
  refine others.unrestricted.invariant ordinary (fun _ _ _ intact => ⟨intact.lists, intact.sets⟩) ?_ ?_
    (fun _ _ intact => ⟨intact.lists, intact.sets⟩) (fun _ _ intact => ⟨intact.lists, intact.sets⟩)
    fun _ _ _ _ intact => ⟨intact.lists, intact.sets⟩
  next =>
    refine fun step absent intact _ => ⟨fun list held there => ?_, intact.sets⟩
    dsimp only
    rw [Table.cell?_modify, if_neg, intact.lists list held there]
    rintro rfl
    rw [absent] at there
    cases there
  next =>
    intro state made intact _
    have fresh := Table.cell?_fresh state.containers.lists made
    have absent : start.containers.lists.cell? (state.containers.lists.add made).2 = none := by
      refine Option.eq_none_iff_forall_not_mem.2 fun held there => ?_
      rw [intact.lists _ held there] at fresh
      cases fresh
    refine ⟨absent, fun list held there => ?_, intact.sets⟩
    dsimp only
    rw [Table.cell?_add, if_neg, intact.lists list held there]
    rintro rfl
    rw [absent] at there
    cases there

theorem perform_restores (ordinary : host.Ordinary) {before : State Diary}
    (steady : before.containers.Steady) (operation : Operation)
    (exception : ∀ list, operation ≠ .shuffle list) :
    Ends (perform (others.quietly host) operation) before (fun _ _ => True) fun _ => before.Intact := by
  have quiet : (others.quietly host).Quiet := quietly_quiet ordinary
  have frame : Invariant (others.quietly host) _ before.Intact := intact_invariant ordinary before
  have start : before.Intact before := .of_containers_eq rfl
  have done {α β : Type} {action : Action Diary α} {answer : α → β} (restores : Ends action before
      (fun _ _ => True) fun _ => before.Intact) :
      Ends (action >>= fun result => pure (answer result)) before (fun _ _ => True)
        fun _ => before.Intact :=
    restores.bind fun _ _ _ => trivial
  by_cases edits : operation.edited? = none ∧ operation.changesSets = false
  next =>
    have kept := frame.perform_keeps operation (by simp [edits.1]) (by simp [edits.2])
      (fun _ destructor value state intact => ((quiet.destructs destructor value) state).imp
        (fun _ _ same => intact.trans (.of_containers_eq same.containers))
        fun _ _ same => intact.trans (.of_containers_eq same.containers)) before start
    exact kept.imp (fun _ _ _ => trivial) fun _ _ intact => intact
  next =>
    cases operation with
    | set list index value => exact done (Sequence.set_restores list index value before)
    | append list value => exact done (Sequence.append_restores list value before)
    | appendAll list source => exact done (Sequence.appendAll_restores list source before)
    | setDestructor list destructor => exact done (Sequence.change_restores list .setDestructor _ before)
    | remove list index => exact done (Sequence.remove_restores list index before)
    | removeFirst list => exact done (Sequence.remove_restores list _ before)
    | pop list => exact done (Sequence.pop_restores list before)
    | removeItem list value => exact done (Sequence.removeItem_restores list value before)
    | reverse list => exact done (Sequence.change_restores list .reverse _ before)
    | sort list comparator =>
      exact done (Sequence.sort_restores quiet (quietly_ordinary ordinary) comparator
        fun held there => steady list held there)
    | shuffle list => exact (exception list rfl).elim
    | toOrderedSet list comparator =>
      exact done ((Sequence.toOrderedSet_ends quiet list comparator before).imp
        (fun _ _ _ => trivial) fun _ _ intact => intact)
    | convertToOrderedSet list => exact done (Sequence.convertToOrderedSet_restores quiet list before)
    | destroy list => exact done (Sequence.destroy_restores quiet list before)
    | destroyIfPresent list =>
      cases list with
      | none => trivial
      | some list => exact done (Sequence.destroy_restores quiet list before)
    | emptySet comparator destructor => trivial
    | setOf values comparator destructor =>
      exact done ((OrderedSet.ofValues_ends quiet values comparator destructor before).imp
        (fun _ _ _ => trivial) fun _ _ intact => intact)
    | setOfTraversal traversal comparator destructor =>
      have visits := frame.visitAll (fun value => .of_pure value) traversal before start
      refine done (visits.bind fun values middle intact => ?_)
      exact (OrderedSet.ofValues_ends quiet _ comparator destructor middle).imp
        (fun _ _ _ => trivial) fun _ _ late => intact.trans late
    | insert set value => exact done (OrderedSet.insert_restores quiet set value before)
    | erase set value => exact done (OrderedSet.erase_restores quiet set value before)
    | setDestructorOfSet set destructor => trivial
    | destroySet set => exact done (OrderedSet.destroy_restores quiet set before)
    | _ => exact absurd ⟨rfl, rfl⟩ edits

/--
An operation that fails leaves every list and every set as it was. The exception is a shuffle that its
random source breaks off, which has permuted the list if draws were within it.
-/
theorem failures_leave_containers (ordinary : host.Ordinary) (conducts others : Conducts)
    (depth : Nat) (script : List Operation) :
    let start := conducts.final host depth script
    (∀ operation, (∀ list, operation ≠ .shuffle list) →
        Ends (perform (others.quietly host) operation) start (fun _ _ => True) fun _ => start.Intact) ∧
      ∀ list, others.DrawsWithin →
        (∀ held, start.containers.lists.cell? list = some held → held.length < 1 <<< 32) →
          Ends (perform (others.quietly host) (.shuffle list)) start (fun _ _ => True)
            fun failure after => start.Intact after ∨
              ∃ held, start.containers.lists.cell? list = some held ∧
                Sequence.Interrupted (others.quietly host) start list held failure after := by
  intro start
  have steady : start.containers.Steady := (final_lasts ordinary conducts depth script).now
  refine ⟨perform_restores ordinary steady, fun list within short => ?_⟩
  have shuffles : Ends (Sequence.shuffle (others.quietly host).toCallbacks list) start
      (fun _ _ => True) fun failure after => start.Intact after ∨
        ∃ held, start.containers.lists.cell? list = some held ∧
          Sequence.Interrupted (others.quietly host) start list held failure after := by
    cases there : start.containers.lists.cell? list with
    | none =>
      refine Sequence.requireLive_bind (.inl (.of_containers_eq rfl)) fun held found _ => ?_
      rw [there] at found
      cases found
    | some held =>
      cases live : held.destroyed with
      | true =>
        refine Sequence.requireLive_bind (.inl (.of_containers_eq rfl)) fun found thereToo alive => ?_
        rw [there] at thereToo
        cases thereToo
        rw [live] at alive
        cases alive
      | false =>
        have permutes := Sequence.shuffle_permutes (quietly_quiet ordinary)
          (quietly_drawsWithin within) (steady list held there) (short held there) there live
        exact permutes.imp (fun _ _ _ => trivial) fun _ _ broke => .inr ⟨held, rfl, broke⟩
  exact shuffles.bind fun _ _ _ => trivial

theorem failures_leave_containers_midway :
    let host := Callbacks.plain Diary fun _ => compareOn Value.rank
    let start := Conducts.still.final host 1
      [.listOf [.integer 1, .integer 2] { destructor := some "free" }]
    let failing : Conducts := { Conducts.still with
      destruct := fun call _ _ =>
        { outcome := if call = 0 then .ok () else .error (.thrown "stuck") }
      draw := fun call _ _ upper => { outcome :=
        match upper.toNat? with
        | some (_ + 1) => if call = 0 then .ok (.zero false) else .error (.thrown "dry")
        | _ => .error (.thrown "dry") } }
    (∃ after, attempt (perform (failing.quietly host) (.destroy ⟨0⟩)) start =
        (.error (.thrown "stuck"), after) ∧ start.Intact after) ∧
      Ends (perform (failing.quietly host) (.shuffle ⟨0⟩)) start (fun _ _ => True)
        fun failure after => start.Intact after ∨
          ∃ held, start.containers.lists.cell? ⟨0⟩ = some held ∧
            Sequence.Interrupted (failing.quietly host) start ⟨0⟩ held failure after := by
  intro host start failing
  have ordinary : host.Ordinary := Callbacks.plain_ordinary Diary _
  have told := failures_leave_containers ordinary Conducts.still failing 1
    [.listOf [.integer 1, .integer 2] { destructor := some "free" }]
  refine ⟨?_, told.2 ⟨0⟩ ?_ ?_⟩
  next =>
    have broke : (attempt (perform (failing.quietly host) (.destroy ⟨0⟩)) start).1 =
        .error (.thrown "stuck") := rfl
    rcases (told.1 (.destroy ⟨0⟩) nofun).attempt with ⟨_, after, ended, _⟩ | ⟨_, after, ended, intact⟩
    · rw [ended] at broke
      cases broke
    · rw [ended] at broke
      cases broke
      exact ⟨after, ended, intact⟩
  next =>
    intro call source lower upper drawn answered
    dsimp only [failing] at answered
    split at answered
    next length counts =>
      split at answered
      next =>
        cases answered
        exact ⟨0, length + 1, by decide, counts, Nat.succ_pos length⟩
      next => cases answered
    next => cases answered
  next =>
    intro held there
    cases there
    decide

end Runs

end Collections
