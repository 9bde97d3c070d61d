import Mathlib
import Collections.Proofs.OrderedSet.Editing
import Collections.Proofs.Runs.Reentrance

set_option autoImplicit false

namespace Collections

open Std

section Prefixes

variable {α : Type} {order : α → α → Ordering} {value : α} {done items result : List α}
  {answer : Bool}

theorem Inserted.mem_or_eq (inserted : Inserted order value items answer result) :
    ∀ item ∈ result, item ∈ items ∨ item = value := by
  cases inserted with
  | kept => exact fun _ member => .inl member
  | added whole =>
    subst whole
    intro item member
    simp only [List.mem_append, List.mem_cons] at member ⊢
    tauto

theorem Erased.sublist (erased : Erased order value items answer result) :
    result.Sublist items := by
  cases erased with
  | absent => exact List.Sublist.refl items
  | @removed left right item whole =>
    subst whole
    exact (List.sublist_cons_self item right).append_left left

theorem prefix_or_first_mem {left right : List α} (begins : done <+: left ++ right) :
    done <+: left ∨ ∃ first rest, right = first :: rest ∧ first ∈ done := by
  obtain ⟨tail, whole⟩ := begins
  rcases List.append_eq_append_iff.1 whole with ⟨rest, rfl, _⟩ | ⟨rest, rfl, rfl⟩
  · exact .inl (List.prefix_append done rest)
  · cases rest with
    | nil => exact .inl (by simp)
    | cons first rest => exact .inr ⟨first, rest ++ tail, rfl, by simp⟩

variable [TransCmp order]

theorem Inserted.begins (inserted : Inserted order value items answer result)
    (strict : Strict order result) (begins : done <+: items)
    (notAbove : ∀ item ∈ done, order item value ≠ .gt) : done <+: result := by
  cases inserted with
  | kept => exact begins
  | @added left right whole absent =>
    rcases prefix_or_first_mem (whole ▸ begins) with within | ⟨first, rest, rfl, member⟩
    · exact within.trans (List.prefix_append left _)
    · have behind : Strict order (value :: first :: rest) := (List.pairwise_append.1 strict).2.1
      have below : order value first = .lt := List.rel_of_pairwise_cons behind List.mem_cons_self
      exact (notAbove first member (OrientedCmp.gt_of_lt below)).elim

theorem Erased.begins (erased : Erased order value items answer result) (begins : done <+: items)
    (below : ∀ item ∈ done, order item value = .lt) : done <+: result := by
  cases erased with
  | absent => exact begins
  | @removed left right item whole equal =>
    rcases prefix_or_first_mem (whole ▸ begins) with within | ⟨first, rest, same, member⟩
    · exact within.trans (List.prefix_append left right)
    · cases same
      cases (OrientedCmp.eq_symm equal).symm.trans (below item member)

end Prefixes

def Operation.KeepsSets (operation : Operation) : Prop :=
  operation.changesSets = false ∧ operation.tearsDown = false

structure Ending where
  start : State Diary
  set : Handle OrderedSet
  held : OrderedSet
  there : start.containers.sets.cell? set = some held
  ranking : Ranking
  ascends : ranking.Ascends start.ordinals held.items.toList
  may : Value → Prop

theorem Ranking.Ascends.nodup {ranking : Ranking} {ordinals : Ordinals} {items : List Value}
    (ascends : ranking.Ascends ordinals items) : items.Nodup := by
  apply List.Pairwise.imp _ ascends
  rintro item _ below rfl
  cases below.2.symm.trans ReflCmp.compare_self

namespace Ending

variable (ending : Ending)

def Foresees (value other : Value) (verdict : Ordering → Prop) : Prop :=
  ∀ ordinals, ending.start.ordinals ≤ ordinals → ending.ranking.Settled ordinals value other →
    verdict (ending.ranking.order ordinals value other)

/-- What may be done to the set while a value is released: all that comes and goes is ahead of it. -/
inductive Allows (value : Value) : Operation → Prop where
  | insert {added : Value} (may : ending.may added)
      (notBehind : ending.Foresees value added (· ≠ .gt)) : Allows value (.insert ending.set added)
  | erase {erased : Value} (ahead : ending.Foresees value erased (· = .lt)) :
      Allows value (.erase ending.set erased)
  | setDestructor (destructor : Option String) :
      Allows value (.setDestructorOfSet ending.set destructor)
  | elsewhere {operation : Operation} (keeps : operation.KeepsSets) : Allows value operation

def Knows (value : Value) : Prop :=
  value ∈ ending.held.items.toList ∨ ending.may value

structure Begins (ordinals : Ordinals) (released : List Value) (held : OrderedSet) : Prop where
  later : ending.start.ordinals ≤ ordinals
  compares : held.comparator = ending.held.comparator
  ascends : ending.ranking.Ascends ordinals held.items.toList
  begins : released <+: held.items.toList
  known : ∀ item ∈ held.items.toList, ending.Knows item

def Amid (released : List Value) (bound : Nat) (state : State Diary) : Prop :=
  ∃ held, state.containers.sets.cell? ending.set = some held ∧
    ending.Begins state.ordinals released held ∧ held.items.size ≤ bound

end Ending

structure State.Onward (kept : Table OrderedSet → Prop) (before after : State Diary) : Prop where
  sets : kept after.containers.sets
  ordinals : before.ordinals ≤ after.ordinals
  calls : before.outside.calls ≤ after.outside.calls
  moments : before.outside.moments <+: after.outside.moments
  destructed : after.outside.destructed = before.outside.destructed

section Onward

variable {host : Callbacks Diary} {conducts : Conducts} {kept : Table OrderedSet → Prop}
  {before middle after : State Diary}

namespace State.Onward

theorem refl (state : State Diary) : state.Onward (· = state.containers.sets) state :=
  ⟨rfl, Ordinals.le_refl _, Nat.le_refl _, List.prefix_rfl, rfl⟩

theorem trans {middling : Table OrderedSet → Prop} (early : before.Onward middling middle)
    (late : middle.Onward kept after) : before.Onward kept after :=
  ⟨late.sets, Ordinals.le_trans early.ordinals late.ordinals, Nat.le_trans early.calls late.calls,
    early.moments.trans late.moments, late.destructed.trans early.destructed⟩

theorem loose (onward : before.Onward kept after) : before.Onward (fun _ => True) after :=
  { onward with sets := trivial }

theorem noted (state : State Diary) : state.Onward (· = state.containers.sets) state.noted :=
  { refl state with moments := List.prefix_append _ _ }

theorem ignoresSets (state : State Diary) : IgnoresSets (state.Onward fun _ => True) :=
  fun _ _ onward => { onward with }

end State.Onward

theorem onward_invariant (ordinary : host.Ordinary) {allowed : Operation → Prop}
    (within : conducts.Within allowed) {run : List Operation → Action Diary Unit}
    (runs : ∀ script : List Operation, (∀ operation ∈ script, allowed operation) →
      Keeps (before.Onward kept) (run script)) :
    Invariant (conducts.surroundings host run) (fun _ => True) (before.Onward kept) := by
  refine within.invariant ordinary runs (fun _ _ onward _ => { onward with })
    (fun onward _ => ⟨trivial, { onward with }⟩) (fun _ _ onward => { onward with })
    (fun {state} left right onward => ?_) fun calls _ more _ onward => ?_
  next =>
    have extended := (compareNatural_judged state.ordinals left right).extended
    exact { onward with ordinals := Ordinals.le_trans onward.ordinals extended }
  next => exact { onward with calls := Nat.le_trans onward.calls more }

theorem perform_onward (ordinary : host.Ordinary) (within : conducts.Within Operation.KeepsSets)
    {run : List Operation → Action Diary Unit}
    (runs : ∀ script : List Operation, (∀ operation ∈ script, operation.KeepsSets) →
      Keeps (before.Onward kept) (run script)) {operation : Operation} (keeps : operation.KeepsSets) :
    Keeps (before.Onward kept) (perform (conducts.surroundings host run) operation) :=
  (onward_invariant ordinary within runs).perform_keeps operation (fun _ _ => trivial)
    (by simp [keeps.1]) (by simp [keeps.2])

theorem runWithin_onward (ordinary : host.Ordinary) (within : conducts.Within Operation.KeepsSets)
    (depth : Nat) {script : List Operation} (keeps : ∀ operation ∈ script, operation.KeepsSets) :
    Keeps (before.Onward kept) (conducts.runWithin host depth script) := by
  have notes : Keeps (before.Onward kept) noteMoment := fun state onward =>
    { onward with moments := onward.moments.trans (List.prefix_append _ _) }
  exact runWithin_keeps notes (fun _ runs _ => perform_onward ordinary within runs) depth keeps

theorem runWithin_invariant (ordinary : host.Ordinary) (within : conducts.Within Operation.KeepsSets)
    (depth : Nat) (before : State Diary) :
    Invariant (conducts.surroundings host (conducts.runWithin host depth)) (fun _ => True)
      (before.Onward fun _ => True) :=
  onward_invariant ordinary within fun _ => runWithin_onward ordinary within depth

end Onward

namespace Ending

section Editing

variable {ending : Ending} {callbacks : Callbacks Diary} {done : List Value} {value other : Value}
  {bound : Nat} {before after : State Diary} {ordinals late : Ordinals} {held : OrderedSet}

theorem Begins.of_le (extended : ordinals ≤ late) (begins : ending.Begins ordinals done held) :
    ending.Begins late done held :=
  { begins with
    later := Ordinals.le_trans begins.later extended
    ascends := begins.ascends.of_le extended }

-- What is not behind the value that is released last is ahead of all that was released before it.
theorem Begins.eq_or_order_eq_lt (begins : ending.Begins ordinals (done ++ [value]) held)
    (notBehind : ending.ranking.order ordinals value other ≠ .gt) :
    ∀ item ∈ done ++ [value], item = value ∨ ending.ranking.order ordinals item other = .lt := by
  intro item member
  rcases List.mem_append.1 member with earlier | last
  · have ascends : ending.ranking.Ascends ordinals (done ++ [value]) :=
      List.Pairwise.sublist begins.begins.sublist begins.ascends
    have below := (List.pairwise_append.1 ascends).2.2 item earlier value List.mem_cons_self
    exact .inr (TransCmp.lt_of_lt_of_isLE below.2 (Ordering.isLE_iff_ne_gt.2 notBehind))
  · exact .inl (List.mem_singleton.1 last)

theorem Begins.value_mem (begins : ending.Begins ordinals (done ++ [value]) held) :
    value ∈ held.items.toList :=
  begins.begins.subset (by simp)

theorem Amid.onward (amid : ending.Amid done bound before)
    (onward : before.Onward (· = before.containers.sets) after) : ending.Amid done bound after := by
  obtain ⟨held, there, begins, bounded⟩ := amid
  exact ⟨held, onward.sets ▸ there, begins.of_le onward.ordinals, bounded⟩

theorem Amid.le {more : Nat} (amid : ending.Amid done bound before) (less : bound ≤ more) :
    ending.Amid done more before := by
  obtain ⟨held, there, begins, bounded⟩ := amid
  exact ⟨held, there, begins, Nat.le_trans bounded less⟩

theorem Amid.searchable (amid : ending.Amid done bound before)
    (ranks : callbacks.Ranks ending.held.comparator ending.ranking) (fits : bound ≤ 1 <<< 31) :
    ∃ held, OrderedSet.Searchable callbacks ending.ranking ending.set held before ∧
      ending.Begins before.ordinals done held ∧ held.items.size ≤ bound := by
  obtain ⟨held, there, begins, bounded⟩ := amid
  exact ⟨held, ⟨there, begins.compares ▸ ranks, begins.ascends, Nat.le_trans bounded fits⟩, begins,
    bounded⟩

variable (ranks : callbacks.Ranks ending.held.comparator ending.ranking)
  (amid : ending.Amid (done ++ [value]) bound before) (fits : bound ≤ 1 <<< 31)

include ranks amid fits

theorem insert_amid (may : ending.may other) (notBehind : ending.Foresees value other (· ≠ .gt)) :
    Succeeds (OrderedSet.insert callbacks ending.set other) before fun _ after =>
      ending.Amid (done ++ [value]) (bound + 1) after := by
  obtain ⟨held, searchable, begins, bounded⟩ := amid.searchable ranks fits
  refine (OrderedSet.insert_inserts searchable other).imp fun _ after told => ?_
  obtain ⟨items, becomes, ascends, compared, inserted⟩ := told
  have begins := begins.of_le becomes.ordinals
  -- The value goes in behind all that has been released, so that is still what the items begin with.
  have notBehind := notBehind _ begins.later (compared value begins.value_mem)
  have keeps : done ++ [value] <+: items.toList := by
    apply inserted.begins ascends.strict begins.begins
    intro item member
    rcases begins.eq_or_order_eq_lt notBehind item member with rfl | below
    · exact notBehind
    · simp [below]
  have known : ∀ item ∈ items.toList, ending.Knows item := by
    intro item member
    rcases inserted.mem_or_eq item member with earlier | rfl
    · exact begins.known item earlier
    · exact .inr may
  exact ⟨_, becomes.there, ⟨begins.later, begins.compares, ascends, keeps, known⟩,
    Nat.le_trans inserted.length_le (Nat.succ_le_succ bounded)⟩

theorem erase_amid (ahead : ending.Foresees value other (· = .lt)) :
    Succeeds (OrderedSet.erase callbacks ending.set other) before fun _ after =>
      ending.Amid (done ++ [value]) bound after := by
  obtain ⟨held, searchable, begins, bounded⟩ := amid.searchable ranks fits
  refine (OrderedSet.erase_erases searchable other).imp fun _ after told => ?_
  obtain ⟨items, becomes, ascends, compared, erased⟩ := told
  have begins := begins.of_le becomes.ordinals
  have ahead := ahead _ begins.later (compared value begins.value_mem)
  have notBehind : ending.ranking.order after.ordinals value other ≠ .gt := by simp [ahead]
  have keeps : done ++ [value] <+: items.toList := by
    apply erased.begins begins.begins
    intro item member
    rcases begins.eq_or_order_eq_lt notBehind item member with rfl | below
    · exact ahead
    · exact below
  have known : ∀ item ∈ items.toList, ending.Knows item := fun item member =>
    begins.known item (erased.sublist.subset member)
  exact ⟨_, becomes.there, ⟨begins.later, begins.compares, ascends, keeps, known⟩,
    Nat.le_trans erased.sublist.length_le bounded⟩

end Editing

section Scripts

variable {ending : Ending} {host : Callbacks Diary} {conducts : Conducts} {done : List Value}
  {value : Value} {bound depth : Nat} {before : State Diary}
  (ordinary : host.Ordinary) (within : conducts.Within Operation.KeepsSets)
  (ranks : (conducts.surroundings host (conducts.runWithin host depth)).toCallbacks.Ranks
    ending.held.comparator ending.ranking)

include ordinary within ranks

def Passes (ending : Ending) (released : List Value) (bound : Nat) (before after : State Diary) : Prop :=
  before.Onward (fun _ => True) after ∧ ending.Amid released bound after

theorem perform_amid {operation : Operation} (allows : ending.Allows value operation)
    (amid : ending.Amid (done ++ [value]) bound before) (fits : bound ≤ 1 <<< 31) :
    Ends (perform (conducts.surroundings host (conducts.runWithin host depth)) operation) before
      (fun _ => ending.Passes (done ++ [value]) (bound + 1) before)
      (fun _ => ending.Passes (done ++ [value]) (bound + 1) before) := by
  have onward : before.Onward (fun _ => True) before := (State.Onward.refl before).loose
  have sets := State.Onward.ignoresSets before
  have invariant := runWithin_invariant ordinary within depth before
  cases allows with
  | insert may notBehind =>
    have inserts := (insert_amid ranks amid fits may notBehind).and
      (invariant.insert sets _ _ before onward)
    exact (inserts.bind fun _ _ told => Succeeds.of_pure told.symm).ends
  | erase ahead =>
    have erases := (erase_amid ranks amid fits ahead).and (invariant.erase sets _ _ before onward)
    exact (erases.bind fun _ _ told =>
      Succeeds.of_pure ⟨told.2, told.1.le (Nat.le_succ bound)⟩).ends
  | setDestructor destructor =>
    obtain ⟨held, there, begins, bounded⟩ := amid
    have assigns := (OrderedSet.change_becomes there ({ · with destructor })).and
      (Invariant.changeSet sets ending.set _ before onward)
    refine (assigns.bind fun _ after told => Succeeds.of_pure ⟨told.2, ?_⟩).ends
    obtain ⟨⟨_, becomes⟩, onward⟩ := told
    exact ⟨_, becomes.there, { begins.of_le onward.ordinals with }, Nat.le_succ_of_le bounded⟩
  | elsewhere keeps =>
    have performs := perform_onward ordinary within
      (fun _ => runWithin_onward ordinary within depth) keeps before (.refl before)
    have passes (after : State Diary) (onward : before.Onward (· = before.containers.sets) after) :
        ending.Passes (done ++ [value]) (bound + 1) before after :=
      ⟨onward.loose, (amid.onward onward).le (Nat.le_succ bound)⟩
    exact performs.imp (fun _ => passes) fun _ => passes

theorem runScript_amid {script : List Operation}
    (allows : ∀ operation ∈ script, ending.Allows value operation)
    (amid : ending.Amid (done ++ [value]) bound before) (fits : bound + script.length ≤ 1 <<< 31) :
    Succeeds (runScript (conducts.surroundings host (conducts.runWithin host depth)) script) before
      fun _ after => ending.Passes (done ++ [value]) (bound + script.length) before after ∧
        ∃ moments, after.outside.moments = before.outside.moments ++ moments ∧
          after.containers ∈ moments := by
  have noted := State.Onward.noted before
  induction script generalizing bound before with
  | nil =>
    -- The last thing that a script does is to note the moment, so what it leaves is among those noted.
    have ends := amid.onward noted
    exact ⟨(), before.noted, rfl, ⟨noted.loose, ends⟩, [before.containers], rfl,
      List.mem_cons_self⟩
  | cons operation rest ih =>
    rw [List.forall_mem_cons] at allows
    rw [List.length_cons] at fits
    -- Whether the operation fails or not, the script goes on from the state that it leaves.
    have performed := (perform_amid ordinary within ranks allows.1 (amid.onward noted)
      (by omega)).leaves
    unfold Succeeds
    rw [runScript_cons]
    generalize (attempt (perform _ operation) before.noted).2 = middle at performed ⊢
    obtain ⟨onward, amid⟩ := performed
    refine (ih allows.2 amid (by omega) (.noted middle)).imp fun _ after told => ?_
    obtain ⟨⟨later, ends⟩, moments, whole, last⟩ := told
    have onward := noted.trans onward
    obtain ⟨between, early⟩ := onward.moments
    refine ⟨⟨onward.trans later, ends.le (by simp; omega)⟩, between ++ moments, ?_, ?_⟩
    · rw [whole, ← early, List.append_assoc]
    · exact List.mem_append_right between last

theorem destruct_amid (releases : conducts.Releases) (name : String)
    (allows : ∀ operation ∈ (conducts.destruct before.outside.calls name value).script,
      ending.Allows value operation)
    (amid : ending.Amid (done ++ [value]) bound before)
    (fits : bound + (conducts.destruct before.outside.calls name value).script.length ≤ 1 <<< 31) :
    Succeeds ((conducts.surroundings host (conducts.runWithin host (depth + 1))).destruct name value)
      before fun _ after => before.outside.calls < after.outside.calls ∧
        after.outside.destructed = before.outside.destructed ++ [(name, value)] ∧
          ending.Amid (done ++ [value])
            (bound + (conducts.destruct before.outside.calls name value).script.length) after ∧
              ∃ moments, after.outside.moments = before.outside.moments ++ moments ∧
                after.containers ∈ moments := by
  let ready : State Diary :=
    { before with outside :=
        { before.outside with
          calls := before.outside.calls + 1
          destructed := before.outside.destructed ++ [(name, value)] } }
  have amid : ending.Amid (done ++ [value]) bound ready := amid
  apply Succeeds.bind_eq rfl
  apply Succeeds.bind_eq rfl
  refine Succeeds.bind (runScript_amid ordinary within ranks allows amid fits) fun _ after told => ?_
  rw [releases]
  obtain ⟨⟨onward, amid⟩, noted⟩ := told
  exact Succeeds.of_pure ⟨onward.calls, onward.destructed, amid, noted⟩

end Scripts

def Misses (ending : Ending) (moments : List Containers) (value : Value) : Prop :=
  ∃ moment ∈ moments, value ∉ (moment.sets.get ending.set).items.toList

structure Walked (ending : Ending) (name : String) (left : Nat → Nat) (released : List Value)
    (held : OrderedSet) (state : State Diary) : Prop where
  there : state.containers.sets.cell? ending.set = some held
  begins : ending.Begins state.ordinals released held
  fits : held.items.size + left state.outside.calls ≤ 1 <<< 31
  traced : state.outside.destructed =
    ending.start.outside.destructed ++ owing (some name) released
  lasts : ∃ moments, state.outside.moments = ending.start.outside.moments ++ moments ∧
    ∀ item ∈ ending.held.items.toList, item ∈ held.items.toList ∨ ending.Misses moments item

section Walking

variable {ending : Ending} {host : Callbacks Diary} {conducts : Conducts} {depth : Nat} {name : String}
  {left : Nat → Nat} (ordinary : host.Ordinary) (releases : conducts.Releases)
  (within : conducts.Within Operation.KeepsSets)
  (ranks : (conducts.surroundings host (conducts.runWithin host depth)).toCallbacks.Ranks
    ending.held.comparator ending.ranking)
  (allows : ∀ call value, ending.Knows value →
    ∀ operation ∈ (conducts.destruct call name value).script, ending.Allows value operation)
  (spends : ∀ call value,
    (conducts.destruct call name value).script.length + left (call + 1) ≤ left call)

include ordinary releases within ranks allows spends

theorem visit_walked {released : List Value} {held : OrderedSet} {before : State Diary}
    (walked : ending.Walked name left released held before)
    (inside : released.length < held.items.toList.length) :
    Succeeds (do
        let item := (← OrderedSet.state ending.set).item released.length
        if !item.isNull then
          (conducts.surroundings host (conducts.runWithin host (depth + 1))).destruct name item) before
      fun _ after => ∃ item later, ending.Walked name left (released ++ [item]) later after ∧
        left after.outside.calls ≤ left before.outside.calls ∧
          (later.items.size ≤ held.items.size ∨
            left after.outside.calls < left before.outside.calls) := by
  have begins := walked.begins
  have next : released ++ [held.items.toList[released.length]] <+: held.items.toList := by
    have taken := List.take_prefix (released.length + 1) held.items.toList
    rwa [List.take_succ_eq_append_getElem inside, ← List.prefix_iff_eq_take.1 begins.begins] at taken
  apply Succeeds.bind_eq (OrderedSet.state_eq walked.there)
  rw [OrderedSet.item_eq_getElem held inside]
  generalize held.items.toList[released.length] = value at next ⊢
  have begins : ending.Begins before.ordinals (released ++ [value]) held := { begins with begins := next }
  dsimp only
  cases null : value.isNull with
  | true =>
    rw [if_neg (by simp)]
    refine Succeeds.of_pure ⟨value, held, { walked with begins, traced := ?_ }, by simp, by simp⟩
    simpa [owing_append, owing, null] using walked.traced
  | false =>
    rw [if_pos (by simp)]
    have spent := spends before.outside.calls value
    have antitone : Antitone left := antitone_nat_of_succ_le fun call =>
      Nat.le_of_add_left_le (spends call value)
    have known : ending.Knows value := begins.known value begins.value_mem
    have amid : ending.Amid (released ++ [value]) held.items.size before :=
      ⟨held, walked.there, begins, Nat.le_refl _⟩
    have fits := walked.fits
    refine (destruct_amid ordinary within ranks releases name (allows _ value known) amid
      (by omega)).imp fun _ after told => ?_
    obtain ⟨called, traced, ⟨later, there, begins, bounded⟩, moments, whole, last⟩ := told
    have less : left after.outside.calls ≤ left (before.outside.calls + 1) := antitone called
    refine ⟨value, later, ⟨there, begins, by omega, ?_, ?_⟩, by omega, by omega⟩
    · rw [traced, walked.traced, owing_append, List.append_assoc]
      simp [owing, null]
    · -- Whatever was missed before, what the set is without now was noted when the script ended.
      obtain ⟨earlier, so_far, _⟩ := walked.lasts
      refine ⟨earlier ++ moments, by rw [whole, so_far, List.append_assoc], fun item _ => ?_⟩
      by_cases member : item ∈ later.items.toList
      · exact .inl member
      · refine .inr ⟨after.containers, List.mem_append_right earlier last, ?_⟩
        rwa [Table.get_of_cell? there]

theorem walk_walked (before : State Diary)
    (start : ending.Walked name left [] ending.held before)
    (grows : left before.outside.calls ≤ host.growths) :
    Succeeds ((conducts.surroundings host (conducts.runWithin host (depth + 1))).toCallbacks.visitAll
        (return (← OrderedSet.state ending.set).items.size) fun position => do
          let item := (← OrderedSet.state ending.set).item position
          if !item.isNull then
            (conducts.surroundings host (conducts.runWithin host (depth + 1))).destruct name item) before
      fun _ after => ∃ held, ending.Walked name left held.items.toList held after := by
  let reached (position : Nat) (state : State Diary) :=
    ∃ released held, released.length = position ∧ ending.Walked name left released held state
  let size (state : State Diary) := (state.containers.sets.get ending.set).items.size
  let remaining (state : State Diary) := left state.outside.calls
  have holds {released held} {state : State Diary}
      (walked : ending.Walked name left released held state) : size state = held.items.size := by
    simp only [size, Table.get_of_cell? walked.there]
  have visits (position : Nat) (state : State Diary) (inside : position < size state)
      (so_far : reached position state) :
      Succeeds (do
          let item := (← OrderedSet.state ending.set).item position
          if !item.isNull then
            (conducts.surroundings host (conducts.runWithin host (depth + 1))).destruct name item) state
        fun _ after => reached (position + 1) after ∧ remaining after ≤ remaining state ∧
          (size after ≤ size state ∨ remaining after < remaining state) := by
    obtain ⟨released, held, rfl, walked⟩ := so_far
    rw [holds walked] at inside
    refine (visit_walked ordinary releases within ranks allows spends walked inside).imp
      fun _ after told => ?_
    obtain ⟨item, later, further, less, steady⟩ := told
    rw [holds walked, holds further]
    exact ⟨⟨_, later, by simp, further⟩, less, steady⟩
  refine (visitAll_grows (fun _ _ _ => rfl) visits _ before ⟨[], _, rfl, start⟩ grows).imp
    fun _ after told => ?_
  -- What was released begins the items, and is no shorter than they are: it is all of them.
  obtain ⟨_, ⟨released, held, rfl, walked⟩, whole⟩ := told
  rw [holds walked] at whole
  obtain rfl := walked.begins.begins.eq_of_length_le whole
  exact ⟨held, walked⟩

/--
A set may be used while it ends, so long as what comes and goes is ahead of the item that is being
released. The destructor is called at most once with a value, and once with each item that is not null,
unless the item has been erased before its turn.
-/
theorem set_released_amid_callbacks (owns : ending.held.destructor = some name)
    (fits : ending.held.items.size + left ending.start.outside.calls ≤ 1 <<< 31)
    (grows : left ending.start.outside.calls ≤ host.growths) :
    Succeeds (perform (conducts.surroundings host (conducts.runWithin host (depth + 1)))
      (.destroySet ending.set)) ending.start fun _ after =>
        ∃ (released : List Value) (moments : List Containers),
          after.outside.destructed =
            ending.start.outside.destructed ++ released.map (fun value => (name, value)) ∧
          after.outside.moments = ending.start.outside.moments ++ moments ∧
            (∀ value ∈ released, ending.Knows value ∧ value.isNull = false) ∧ released.Nodup ∧
              (∀ item ∈ ending.held.items.toList, item.isNull = false →
                item ∈ released ∨ ending.Misses moments item) ∧
                (after.containers.sets.get ending.set).items = #[] := by
  have start : ending.Walked name left [] ending.held ending.start :=
    { there := ending.there
      begins := ⟨Ordinals.le_refl _, rfl, ending.ascends, List.nil_prefix, fun _ => .inl⟩
      fits
      traced := by simp [owing]
      lasts := ⟨[], by simp, fun _ => .inl⟩ }
  refine Succeeds.bind ?_ fun _ after told => Succeeds.of_pure told
  apply Succeeds.bind_eq (OrderedSet.state_eq ending.there)
  rw [owns]
  refine (walk_walked ordinary releases within ranks allows spends _ start grows).bind
    fun _ middle told => ?_
  obtain ⟨held, walked⟩ := told
  obtain ⟨moments, noted, lasts⟩ := walked.lasts
  have ignores : IgnoresSets fun state : State Diary => state.outside = middle.outside :=
    fun _ _ same => same
  have clears := (OrderedSet.change_becomes walked.there OrderedSet.cleared).and
    (Invariant.changeSet ignores ending.set _ middle rfl)
  refine clears.imp fun _ after told => ?_
  obtain ⟨⟨_, becomes⟩, same⟩ := told
  refine ⟨held.items.toList.filter fun value => !value.isNull, moments, same ▸ walked.traced,
    same ▸ noted, fun value member => ?_, walked.begins.ascends.nodup.filter _,
    fun item there full => ?_, ?_⟩
  · obtain ⟨kept, full⟩ := List.mem_filter.1 member
    exact ⟨walked.begins.known value kept, by simpa using full⟩
  · refine (lasts item there).imp_left fun member => ?_
    exact List.mem_filter.2 ⟨member, by simp [full]⟩
  · rw [Table.get_of_cell? becomes.there]
    rfl

end Walking

end Ending

theorem set_released_amid_callbacks_that_insert :
    let host := { Callbacks.plain Diary fun _ => compareOn Value.rank with growths := 2 }
    let script : List Operation := [.insert ⟨0⟩ (.integer 5), .erase ⟨0⟩ (.integer 3)]
    let conducts := { Conducts.still with
      destruct := fun call _ value =>
        { script := if call = 0 ∧ value = Value.integer 1 then script else [], outcome := .ok () } }
    let items : List Value := [.integer 1, .integer 2, .integer 3]
    let start := conducts.quietFinal host [.setOf items none (some "free")]
    Succeeds (perform (conducts.surroundings host (conducts.runWithin host 1)) (.destroySet ⟨0⟩)) start
      fun _ after => ∃ (released : List Value) (moments : List Containers),
        after.outside.destructed = released.map (fun value => ("free", value)) ∧
          after.outside.moments = start.outside.moments ++ moments ∧ released.Nodup ∧
            ∀ item ∈ items, item ∈ released ∨
              ∃ moment ∈ moments, item ∉ (moment.sets.get ⟨0⟩).items.toList := by
  intro host script conducts items start
  have made : (start.containers.sets.cell? ⟨0⟩).map
      (fun held => (held.items.toList, held.comparator, held.destructor)) =
        some (items, none, some "free") := by decide +kernel
  have calls : start.outside.calls = 0 := by decide +kernel
  have silent : start.outside.destructed = [] := by decide +kernel
  obtain ⟨held, there, shown⟩ := Option.map_eq_some_iff.1 made
  obtain ⟨holds, compares, owns⟩ : held.items.toList = items ∧ held.comparator = none ∧
    held.destructor = some "free" := by simpa using shown
  have below {low high : Int} (ordinals : Ordinals)
      (less : ({} : Ordinals).order (.integer low) (.integer high) = .lt) :
      Ranking.natural.Below ordinals (.integer low) (.integer high) :=
    Ranking.natural_below ordinals rfl rfl less
  have ascends : Ranking.natural.Ascends start.ordinals held.items.toList := by
    rw [holds]
    refine List.pairwise_cons.2 ⟨?_, List.pairwise_pair.2 (below _ (by decide))⟩
    simp only [List.mem_cons, List.not_mem_nil, or_false, forall_eq_or_imp, forall_eq]
    exact ⟨below _ (by decide), below _ (by decide)⟩
  let ending : Ending :=
    { start, set := ⟨0⟩, held, there, ranking := .natural, ascends, may := (· = .integer 5) }
  have plain := Callbacks.plain_ordinary Diary fun _ => compareOn Value.rank
  have ordinary : host.Ordinary := ⟨plain.looks, plain.requires, plain.assigns, plain.copies⟩
  have within : conducts.Within Operation.KeepsSets := Conducts.still_within _ _
  have allows (call : Nat) (value : Value) (_ : ending.Knows value) (operation : Operation)
      (member : operation ∈ (conducts.destruct call "free" value).script) :
      ending.Allows value operation := by
    by_cases first : call = 0 ∧ value = .integer 1
    · obtain ⟨rfl, rfl⟩ := first
      simp only [conducts, and_self, if_true, script, List.mem_cons, List.not_mem_nil, or_false]
        at member
      rcases member with rfl | rfl
      · refine .insert rfl fun ordinals _ _ => ?_
        have ahead : Ranking.natural.Below ordinals (.integer 1) (.integer 5) := below _ (by decide)
        simp [ending, ahead.2]
      · exact .erase fun ordinals _ _ => (below ordinals (by decide)).2
    · simp [conducts, if_neg first] at member
  let left (call : Nat) := if call = 0 then 2 else 0
  have spends (call : Nat) (value : Value) :
      (conducts.destruct call "free" value).script.length + left (call + 1) ≤ left call := by
    simp only [conducts, left]
    split <;> simp_all [script]
  have ranks : (conducts.surroundings host (conducts.runWithin host 0)).toCallbacks.Ranks
      held.comparator .natural := compares ▸ Callbacks.naturalOrder_ranks _
  have sized : held.items.size = 3 := by simp [← Array.length_toList, holds, items]
  have told := Ending.set_released_amid_callbacks ordinary (fun _ _ _ => rfl) within ranks allows spends
    owns (by rw [calls, sized]; decide) (by rw [calls]; decide)
  refine told.imp fun _ after told => ?_
  obtain ⟨released, moments, traced, noted, _, once, lasts, _⟩ := told
  refine ⟨released, moments, ?_, noted, once, fun item member => ?_⟩
  · simpa [ending, silent] using traced
  · refine lasts item (holds ▸ member) ?_
    simp only [items, List.mem_cons, List.not_mem_nil, or_false] at member
    rcases member with rfl | rfl | rfl <;> rfl

theorem item_not_released_behind_erased :
    let host := Callbacks.plain Diary fun _ => compareOn Value.rank
    let conducts := { Conducts.still with
      destruct := fun call _ _ =>
        { script := if call = 0 then [.erase ⟨0⟩ (.integer 1)] else [], outcome := .ok () } }
    let start := conducts.quietFinal host [.setOf [.integer 1, .integer 2] none (some "free")]
    let surroundings := conducts.surroundings host (conducts.runWithin host 1)
    let after := (attempt (perform surroundings (.destroySet ⟨0⟩)) start).2
    (start.containers.sets.get ⟨0⟩).items.toList = [.integer 1, .integer 2] ∧
      (after.outside.moments.drop start.outside.moments.length).map
          (fun moment => (moment.sets.get ⟨0⟩).items.toList) =
        [[.integer 1, .integer 2], [.integer 2]] ∧
        after.outside.destructed = [("free", .integer 1)] := by
  exact ⟨by cbv, by cbv, by cbv⟩

end Collections
