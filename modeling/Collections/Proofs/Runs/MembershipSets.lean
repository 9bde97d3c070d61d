import Collections.Proofs.Runs.Sharing

set_option autoImplicit false

namespace Collections

open Sequence Std

variable {Outside : Type}

namespace Value

theorem alike_numbers (left right : Number) : (Value.number left).alike (.number right) = true ↔
    left.isZero = true ∧ right.isZero = true ∨ left = right := by
  cases left <;> cases right <;> simp [alike, identical, Number.same, Number.isZero]

theorem alike_iff (left right : Value) : left.alike right = true ↔ left.asMember = right.asMember := by
  have zero : (Number.zero false).isZero = true := rfl
  cases left <;> cases right
  case number.number left right =>
    rw [alike_numbers]
    dsimp only [asMember]
    split <;> split <;> grind
  all_goals simp [alike, identical, asMember]
  all_goals split <;> simp

theorem alike_asMember (left right : Value) : left.asMember.alike right = left.alike right := by
  have again : left.asMember.asMember = left.asMember := by
    cases left with
    | number held =>
      have zero : (Number.zero false).isZero = true := rfl
      cases held : held.isZero <;> simp [asMember, held, zero]
    | _ => rfl
  rw [Bool.eq_iff_iff, alike_iff, alike_iff, again]

def withMember (members : List Value) (value : Value) : List Value :=
  if members.any fun member => member.alike value then members else value.asMember :: members

theorem any_withMember (members : List Value) (value asked : Value) :
    ((withMember members value).any fun member => member.alike asked) =
      ((members.any fun member => member.alike asked) || value.alike asked) := by
  unfold withMember
  split
  next held =>
    obtain ⟨member, inside, same⟩ := List.any_eq_true.1 held
    cases alike : value.alike asked with
    | false => rw [Bool.or_false]
    | true =>
      -- What is alike to the value is so to the member that it is alike to.
      rw [alike_iff] at same alike
      rw [Bool.or_true, List.any_eq_true]
      exact ⟨member, inside, (alike_iff member asked).2 (same.trans alike)⟩
  next => rw [List.any_cons, alike_asMember, Bool.or_comm]

theorem any_foldl_withMember (values members : List Value) (asked : Value) :
    ((values.foldl withMember members).any fun member => member.alike asked) =
      ((members.any fun member => member.alike asked) || values.any fun member => member.alike asked) := by
  induction values generalizing members with
  | nil => simp
  | cons value rest ih => rw [List.foldl_cons, ih, any_withMember, List.any_cons, Bool.or_assoc]

theorem any_distinct (values : List Value) (asked : Value) :
    ((distinct values).any fun member => member.alike asked) =
      values.any fun member => member.alike asked :=
  List.any_reverse.trans (any_foldl_withMember values [] asked)

def NumbersApart (values : List Value) : Prop :=
  ∀ held whole, .number held ∈ values → .integer whole ∈ values → held.toInt? ≠ some whole

theorem NumbersApart.of_subset {values others : List Value} (apart : NumbersApart values)
    (within : others ⊆ values) : NumbersApart others :=
  fun held whole heldIn wholeIn => apart held whole (within heldIn) (within wholeIn)

theorem NumbersApart.coincides_eq {values : List Value} (apart : NumbersApart values) {left right : Value}
    (leftIn : left ∈ values) (rightIn : right ∈ values) : left.coincides right = left.alike right := by
  unfold coincides
  split
  next held whole => simpa [alike, identical] using apart held whole leftIn rightIn
  next whole held => simpa [alike, identical] using apart held whole rightIn leftIn
  next => rfl

theorem NumbersApart.exists_level_iff {values : List Value} {value : Value}
    (apart : NumbersApart (value :: values)) :
    (∃ member ∈ values, value.Level member) ↔ ∃ member ∈ values, member.alike value = true := by
  refine exists_congr fun member => and_congr_right fun inside => ?_
  rw [← apart.coincides_eq (List.mem_cons_of_mem _ inside) List.mem_cons_self, coincides_iff_level]
  exact ⟨Level.symm, Level.symm⟩

end Value

section Sets

variable {surroundings : Surroundings Outside} {values : List Value} {gather : Action Outside Members}
  {before : State Outside}

/--
The ways to come by members that are these values: a set in natural order, or a native one, which may be
told by all the values or by those that it holds.
-/
inductive Surroundings.Gathers (surroundings : Surroundings Outside) (values : List Value) :
    Action Outside Members → Prop where
  | atOnce (destructor : Option String) : surroundings.Gathers values do
      return .set (← OrderedSet.ofValues surroundings.toCallbacks values none destructor)
  | oneByOne (destructor : Option String) : surroundings.Gathers values do
      return .set (← OrderedSet.ofInserted surroundings.toCallbacks values none destructor)
  | given : surroundings.Gathers values (return .among values)
  | distinct : surroundings.Gathers values (return .among (Value.distinct values))

/-- Apart from numbers and integers of one value, the members tell which values are alike to one of these. -/
def Surroundings.TellsAlike (surroundings : Surroundings Outside) (members : Members) (values : List Value)
    (state : State Outside) : Prop :=
  ∃ present ready, surroundings.Tells members present ready ∧ ready state ∧
    ∀ value, Value.NumbersApart (value :: values) →
      (present value ↔ ∃ member ∈ values, member.alike value = true)

theorem OrderedSet.tells_alike {destructor : Option String} {set : Handle OrderedSet} {items : Array Value}
    {after : State Outside} (fits : values.length ≤ 1 <<< 31)
    (becomes : before.SetBecomes set { items, destructor } after)
    (ascends : Ranking.natural.Ascends after.ordinals items.toList)
    (keeps : ∀ late, after.ordinals ≤ late → ∀ value,
      equalTo (Ranking.natural.order late) value items.toList =
        equalTo (Ranking.natural.order late) value values) :
    surroundings.TellsAlike (.set set) values after := by
  have shorter : items.toList.length ≤ values.length :=
    ascends.strict.length_le (keeps after.ordinals (Ordinals.le_refl _))
  have searchable : OrderedSet.Searchable surroundings.toCallbacks .natural set { items, destructor } after :=
    ⟨becomes.there, surroundings.naturalOrder_ranks, ascends, shorter.trans fits⟩
  refine ⟨_, _, OrderedSet.Searchable.tells _ Ranking.natural_classes, searchable, fun value apart => ?_⟩
  rw [exists_level_iff keeps, apart.exists_level_iff]

theorem Surroundings.Gathers.tells (gathers : surroundings.Gathers values gather)
    (fits : values.length ≤ 1 <<< 31) :
    Succeeds gather before fun members after => after.containers.lists = before.containers.lists ∧
      surroundings.TellsAlike members values after := by
  have ranks := surroundings.toCallbacks.naturalOrder_ranks
  cases gathers with
  | atOnce destructor =>
    refine (OrderedSet.ofValues_lasts ranks values destructor before).bind fun set after told => ?_
    obtain ⟨_, items, becomes, ascends, keeps⟩ := told
    exact Succeeds.of_pure ⟨becomes.lists, OrderedSet.tells_alike fits becomes ascends keeps⟩
  | oneByOne destructor =>
    refine (OrderedSet.ofInserted_lasts ranks fits destructor before).bind fun set after told => ?_
    obtain ⟨_, items, becomes, ascends, keeps⟩ := told
    exact Succeeds.of_pure ⟨becomes.lists, OrderedSet.tells_alike fits becomes ascends keeps⟩
  | given => exact Succeeds.of_pure ⟨rfl, _, _, surroundings.tells_native _, trivial, fun _ _ => Iff.rfl⟩
  | distinct =>
    refine Succeeds.of_pure ⟨rfl, _, _, surroundings.tells_native _, trivial, fun value _ => ?_⟩
    simp only [← List.any_eq_true, Value.any_distinct]

theorem Surroundings.TellsAlike.filters {members : Members} {list : Handle Sequence} {held : Sequence}
    (alike : surroundings.TellsAlike members values before)
    (there : before.containers.lists.cell? list = some held) (live : held.destroyed = false)
    (apart : Value.NumbersApart (values ++ held.elements)) :
    Succeeds (perform surroundings (.filterMembers list members)) before (fun answer after =>
        ∃ made, answer = .list made ∧ Showing made (held.elements.filter fun value =>
          !value.isNull && values.any fun member => member.alike value) after) ∧
      Succeeds (perform surroundings (.filterOthers list members)) before (fun answer after =>
        ∃ made, answer = .list made ∧ Showing made (held.elements.filter fun value =>
          value.isNull || !values.any fun member => member.alike value) after) := by
  obtain ⟨present, ready, tells, start, agrees⟩ := alike
  have decides (value : Value) (inside : value ∈ held.elements) : Members.chosen present value ↔
      (!value.isNull && values.any fun member => member.alike value) = true := by
    have alone : Value.NumbersApart (value :: values) :=
      apart.of_subset (List.cons_subset.2 ⟨List.mem_append_right _ inside, List.subset_append_left _ _⟩)
    rw [Members.chosen, agrees value alone, Bool.and_eq_true, Bool.not_eq_true', List.any_eq_true]
  constructor
  · refine (filterMembers_picks tells there live start).imp fun answer after told => ?_
    obtain ⟨_, made, rfl, picked⟩ := told
    exact ⟨made, rfl, picked.shows _ fun value inside => (decides value inside).symm⟩
  · refine (filterOthers_picks tells there live start).imp fun answer after told => ?_
    obtain ⟨_, made, rfl, picked⟩ := told
    refine ⟨made, rfl, picked.shows _ fun value inside => ?_⟩
    rw [decides value inside]
    cases value.isNull <;> simp

/--
Whichever way the members were gathered, the filters show the same elements: those that a native set of
the values decides for. Both zeros are one to it, what is not a number is found, and null is left out.
-/
theorem membership_sets_interchange {list : Handle Sequence} {held : Sequence}
    (gathers : surroundings.Gathers values gather) (fits : values.length ≤ 1 <<< 31)
    (there : before.containers.lists.cell? list = some held) (live : held.destroyed = false)
    (apart : Value.NumbersApart (values ++ held.elements)) :
    Succeeds (do perform surroundings (.filterMembers list (← gather))) before (fun answer after =>
        ∃ made, answer = .list made ∧ Showing made (held.elements.filter fun value =>
          !value.isNull && values.any fun member => member.alike value) after) ∧
      Succeeds (do perform surroundings (.filterOthers list (← gather))) before (fun answer after =>
        ∃ made, answer = .list made ∧ Showing made (held.elements.filter fun value =>
          value.isNull || !values.any fun member => member.alike value) after) := by
  have gathering : Succeeds gather before _ := gathers.tells fits
  constructor
  · refine gathering.bind fun members middle told => ?_
    obtain ⟨same, alike⟩ := told
    exact (alike.filters (same ▸ there) live apart).1
  · refine gathering.bind fun members middle told => ?_
    obtain ⟨same, alike⟩ := told
    exact (alike.filters (same ▸ there) live apart).2

end Sets

theorem membership_sets_interchange_of_zeros :
    let surroundings : Surroundings Diary :=
      { Callbacks.plain Diary fun _ => compareOn Value.rank with test := fun _ _ => return true }
    let values : List Value :=
      [.object 2, .null, .number (.zero true), .text "a", .undefined, .number .nan, .symbol 1]
    let kept : List Value := [.number .nan, .number (.zero false), .symbol 1, .undefined]
    let listed : Sequence := {
      storage := { slots := #[some (.number .nan), some .null, some (.number (.zero false)),
        some (.symbol 1), some (.object 1), some (.integer 7), some .undefined] }
      length := 7 }
    let start : State Diary := ⟨{ lists := ⟨#[listed]⟩ }, {}, {}⟩
    let shows (gather : Action Diary Members) (kept : List Value) :=
      Succeeds (do perform surroundings (.filterMembers ⟨0⟩ (← gather))) start fun answer after =>
        ∃ made, answer = .list made ∧ Showing made kept after
    shows (do return .set (← OrderedSet.ofValues surroundings.toCallbacks values none none)) kept ∧
      shows (do return .set (← OrderedSet.ofInserted surroundings.toCallbacks values none none)) kept ∧
      shows (return .among (Value.distinct values)) kept := by
  intro surroundings values kept listed start shows
  have apart : Value.NumbersApart (values ++ listed.elements) := by
    intro held whole heldIn wholeIn
    have members : listed.elements = [.number .nan, .null, .number (.zero false), .symbol 1, .object 1,
      .integer 7, .undefined] := rfl
    simp only [values, members, List.cons_append, List.nil_append, List.mem_cons, List.not_mem_nil,
      reduceCtorEq, Value.number.injEq, Value.integer.injEq, false_or, or_false] at heldIn wholeIn
    subst wholeIn
    rcases heldIn with rfl | rfl | rfl | rfl <;> decide
  have there : start.containers.lists.cell? ⟨0⟩ = some listed := rfl
  have interchange {gather : Action Diary Members} (gathers : surroundings.Gathers values gather) :
      shows gather kept :=
    (membership_sets_interchange gathers (by decide) there rfl apart).1
  exact ⟨interchange (.atOnce none), interchange (.oneByOne none), interchange .distinct⟩

end Collections
