import Collections.Proofs.NaturalOrder

set_option autoImplicit false

namespace Collections

open Std

namespace Text

theorem characterUnits_append_inj {left right : Char} {leftRest rightRest : List Nat}
    (same : characterUnits left ++ leftRest = characterUnits right ++ rightRest) :
    left = right ∧ leftRest = rightRest := by
  have valid (character : Char) : character.toNat < 0xD800 ∨
      0xDFFF < character.toNat ∧ character.toNat < 0x110000 := character.valid
  have leftValid := valid left
  have rightValid := valid right
  -- A character beyond the first plane leads with a unit that is no character by itself.
  unfold characterUnits at same
  dsimp only at same
  split at same <;> split at same <;> simp at same
  next => exact ⟨Char.toNat_inj.1 same.1, same.2⟩
  next => omega
  next => omega
  next =>
    have codes : left.toNat = right.toNat := by omega
    exact ⟨Char.toNat_inj.1 codes, same.2.2⟩

theorem characterUnits_ne_nil (character : Char) : characterUnits character ≠ [] := by
  unfold characterUnits
  dsimp only
  split <;> simp

theorem flatMap_characterUnits_inj {left right : List Char}
    (same : left.flatMap characterUnits = right.flatMap characterUnits) : left = right := by
  induction left generalizing right with
  | nil =>
    cases right with
    | nil => rfl
    | cons character rest => simp [characterUnits_ne_nil] at same
  | cons character rest ih =>
    cases right with
    | nil => simp [characterUnits_ne_nil] at same
    | cons other others =>
      simp only [List.flatMap_cons] at same
      obtain ⟨rfl, later⟩ := characterUnits_append_inj same
      rw [ih later]

theorem codeUnits_inj {left right : String} (same : codeUnits left = codeUnits right) :
    left = right :=
  String.toList_inj.1 (flatMap_characterUnits_inj same)

end Text

def Value.Level (left right : Value) : Prop :=
  left.identical right ∨ (left = .number .nan ∧ right = .number .nan) ∨
    ∃ place, left.place? = some place ∧ right.place? = some place

section Level

variable {ordinals : Ordinals} {left right : Value}

theorem place?_eq_none_of_number {number : Number} (nowhere : number.place? = none) :
    number = .nan := by
  cases number with
  | nan => rfl
  | infinite negative => cases negative <;> cases nowhere
  | finite negative significand exponent canonical => cases nowhere

theorem place?_eq_of_tier_units (tiers : left.tier = right.tier) (units : left.units = right.units) :
    left.place? = right.place? := by
  unfold Value.tier Value.units at *
  cases leftPlace : left.place? with
  | none =>
    cases rightPlace : right.place? with
    | none => rfl
    | some place =>
      have above := tier_of_place rightPlace
      simp only [leftPlace, rightPlace] at tiers
      omega
  | some place =>
    cases rightPlace : right.place? with
    | none =>
      have above := tier_of_place leftPlace
      simp only [leftPlace, rightPlace] at tiers
      omega
    | some other =>
      simp only [leftPlace, rightPlace] at tiers units
      rw [Prod.ext tiers units]

theorem level_of_places (numeric : left.rank = 3) (other : right.rank = 3)
    (places : left.place? = right.place?) : left.Level right := by
  cases leftPlace : left.place? with
  | some place => exact .inr (.inr ⟨place, leftPlace, places ▸ leftPlace⟩)
  | none =>
    -- Only what is not a number has no place among the numeric values.
    have nowhere {value : Value} (numeric : value.rank = 3) (missing : value.place? = none) :
        value = .number .nan := by
      cases value <;> simp_all [Value.rank, Value.place?]
      exact place?_eq_none_of_number missing
    exact .inr (.inl ⟨nowhere numeric leftPlace, nowhere other (places ▸ leftPlace)⟩)

theorem level_of_order_eq (settled : ordinals.Settled left right)
    (equal : ordinals.order left right = .eq) : left.Level right := by
  by_cases identity : left.isIdentity
  · have same := Ordinals.eq_of_order_eq settled identity equal
    subst same
    left
    cases left <;> simp_all [Value.isIdentity, Value.identical]
  · have sameRank : left.rank = right.rank := by
      by_cases same : left.rank = right.rank
      · exact same
      · rw [Ordinals.order_of_rank_ne ordinals same] at equal
        exact Int.compare_eq_eq.1 equal
    rw [Ordinals.order_of_rank_eq ordinals _ _ sameRank] at equal
    simp only [Ordering.then_eq_eq, Nat.compare_eq_eq, Int.compare_eq_eq] at equal
    obtain ⟨standings, tiers, units, texts⟩ := equal
    by_cases numeric : left.rank = 3
    · exact level_of_places numeric (sameRank ▸ numeric) (place?_eq_of_tier_units tiers units)
    · left
      cases left <;> cases right <;>
        simp_all [Value.rank, Value.isIdentity, Value.identical, Ordinals.standing]
      next leftFlag rightFlag => cases leftFlag <;> cases rightFlag <;> simp_all
      next => exact Text.codeUnits_inj texts

theorem level_of_order_eq_of_mem (known : left ∈ ordinals.known)
    (equal : ordinals.order left right = .eq) : left.Level right := by
  refine level_of_order_eq (fun identity sameRank => .inr ⟨known, ?_⟩) equal
  have other : right.isIdentity := Ordinals.isIdentity_eq_of_rank_eq sameRank ▸ identity
  rw [Ordinals.order_of_identities ordinals sameRank identity other] at equal
  have same : ordinals.known.idxOf left = ordinals.known.idxOf right := Nat.compare_eq_eq.1 equal
  exact List.idxOf_lt_length_iff.1 (same ▸ List.idxOf_lt_length_of_mem known)

theorem order_eq_of_level (ordinals : Ordinals) (level : left.Level right) :
    ordinals.order left right = .eq := by
  have plain {value : Value} {place : Int × Int} (placed : value.place? = some place) :
      value.rank = 3 ∧ ordinals.standing value = 0 ∧ value.codeUnits = [] := by
    cases value <;>
      simp_all [Value.place?, Value.rank, Ordinals.standing, Value.isIdentity, Value.codeUnits]
  rcases level with identical | ⟨rfl, rfl⟩ | ⟨place, leftPlace, rightPlace⟩
  · exact (order_eq_of_identical ordinals identical).1
  · exact ReflCmp.compare_self
  · obtain ⟨leftRank, leftStanding, leftUnits⟩ := plain leftPlace
    obtain ⟨rightRank, rightStanding, rightUnits⟩ := plain rightPlace
    rw [Ordinals.order_of_rank_eq ordinals _ _ (leftRank.trans rightRank.symm)]
    simp [Value.tier, Value.units, leftStanding, rightStanding, leftUnits, rightUnits, leftPlace,
      rightPlace]

theorem eq_of_level (level : left.Level right) (identity : left.isIdentity) : left = right := by
  rcases level with identical | ⟨rfl, rfl⟩ | ⟨place, leftPlace, rightPlace⟩
  · cases left <;> simp_all [Value.isIdentity, Value.identical]
  · rfl
  · cases left <;> simp_all [Value.isIdentity, Value.place?]

end Level

def Ordinals.after (calls : Nat → Value × Value) : Nat → Ordinals
  | 0 => {}
  | count + 1 => (compareNatural (after calls count) (calls count).1 (calls count).2).2

def answerAt (calls : Nat → Value × Value) (position : Nat) : Int :=
  (compareNatural (.after calls position) (calls position).1 (calls position).2).1

section History

variable (calls : Nat → Value × Value)

theorem compareEach_from (start count : Nat) :
    compareEach (.after calls start) ((List.range' start count).map calls) =
      (List.range' start count).map (answerAt calls) := by
  induction count generalizing start with
  | zero => rfl
  | succ count ih =>
    simp only [List.range'_succ, List.map_cons, compareEach]
    congr 1
    exact ih (start + 1)

theorem after_le {early late : Nat} (later : early ≤ late) :
    Ordinals.after calls early ≤ .after calls late := by
  induction later with
  | refl => exact Ordinals.le_refl _
  | step _ ih => exact Ordinals.le_trans ih (compareNatural_judged _ _ _).extended

theorem idxOf_eventually (value : Value) :
    (∀ count, value ∉ (Ordinals.after calls count).known) ∨
      ∃ count, value ∈ (Ordinals.after calls count).known ∧ ∀ late, count ≤ late →
        (Ordinals.after calls late).known.idxOf value =
          (Ordinals.after calls count).known.idxOf value := by
  by_cases ever : ∃ count, value ∈ (Ordinals.after calls count).known
  · obtain ⟨count, known⟩ := ever
    exact .inr ⟨count, known, fun late later => Ordinals.idxOf_eq_of_le (after_le calls later) known⟩
  · exact .inl (not_exists.1 ever)

theorem compare_idxOf_eventually (left right : Value) :
    ∃ count, ∀ late, count ≤ late →
      compare ((Ordinals.after calls late).known.idxOf left)
          ((Ordinals.after calls late).known.idxOf right) =
        compare ((Ordinals.after calls count).known.idxOf left)
          ((Ordinals.after calls count).known.idxOf right) := by
  have last {value : Value} (never : ∀ count, value ∉ (Ordinals.after calls count).known)
      (count : Nat) : (Ordinals.after calls count).known.idxOf value =
        (Ordinals.after calls count).known.length := List.idxOf_eq_length (never count)
  have longer {early late : Nat} (later : early ≤ late) :=
    List.IsPrefix.length_le (after_le calls later)
  -- An identity without an ordinal stays behind all that have one.
  rcases idxOf_eventually calls left with leftNever | ⟨leftCount, leftKnown, leftLasts⟩ <;>
    rcases idxOf_eventually calls right with rightNever | ⟨rightCount, rightKnown, rightLasts⟩
  · exact ⟨0, fun late _ => by simp [last leftNever, last rightNever]⟩
  · refine ⟨rightCount, fun late later => ?_⟩
    have inside := List.idxOf_lt_length_of_mem rightKnown
    rw [rightLasts late later, last leftNever, last leftNever, Nat.compare_eq_gt.2 inside,
      Nat.compare_eq_gt.2 (Nat.lt_of_lt_of_le inside (longer later))]
  · refine ⟨leftCount, fun late later => ?_⟩
    have inside := List.idxOf_lt_length_of_mem leftKnown
    rw [leftLasts late later, last rightNever, last rightNever, Nat.compare_eq_lt.2 inside,
      Nat.compare_eq_lt.2 (Nat.lt_of_lt_of_le inside (longer later))]
  · refine ⟨max leftCount rightCount, fun late later => ?_⟩
    rw [leftLasts late (by omega), rightLasts late (by omega),
      leftLasts (max leftCount rightCount) (by omega),
      rightLasts (max leftCount rightCount) (by omega)]

theorem order_eventually (left right : Value) :
    ∃ count, ∀ late, count ≤ late →
      (Ordinals.after calls late).order left right = (Ordinals.after calls count).order left right := by
  by_cases sameRank : left.rank = right.rank
  · by_cases identity : left.isIdentity
    · have other : right.isIdentity := Ordinals.isIdentity_eq_of_rank_eq sameRank ▸ identity
      simp only [Ordinals.order_of_identities _ sameRank identity other]
      exact compare_idxOf_eventually calls left right
    · exact ⟨0, fun late _ => by simp only [Ordinals.order_of_plain _ sameRank identity]⟩
  · exact ⟨0, fun late _ => by simp only [Ordinals.order_of_rank_ne _ sameRank]⟩

noncomputable def lastingOrder (left right : Value) : Ordering :=
  (Ordinals.after calls (order_eventually calls left right).choose).order left right

theorem lastingOrder_eq (left right : Value) :
    ∃ count, ∀ late, count ≤ late →
      (Ordinals.after calls late).order left right = lastingOrder calls left right :=
  ⟨_, (order_eventually calls left right).choose_spec⟩

instance : TransCmp (lastingOrder calls) where
  eq_swap {left right} := by
    obtain ⟨early, forward⟩ := lastingOrder_eq calls left right
    obtain ⟨late, backward⟩ := lastingOrder_eq calls right left
    rw [← forward (max early late) (by omega), ← backward (max early late) (by omega)]
    exact OrientedCmp.eq_swap
  isLE_trans {low middle high} := by
    obtain ⟨first, lower⟩ := lastingOrder_eq calls low middle
    obtain ⟨second, upper⟩ := lastingOrder_eq calls middle high
    obtain ⟨third, whole⟩ := lastingOrder_eq calls low high
    let late := max first (max second third)
    rw [← lower late (by omega), ← upper late (by omega), ← whole late (by omega)]
    exact TransCmp.isLE_trans

theorem answerAt_follows (position : Nat) :
    compare (answerAt calls position) 0 = lastingOrder calls (calls position).1 (calls position).2 := by
  have judged := compareNatural_judged (.after calls position) (calls position).1 (calls position).2
  obtain ⟨count, lasting⟩ := lastingOrder_eq calls (calls position).1 (calls position).2
  have extended : Ordinals.after calls (position + 1) ≤ .after calls (max count (position + 1)) :=
    after_le calls (by omega)
  rw [← lasting (max count (position + 1)) (by omega),
    Ordinals.order_eq_of_settled extended judged.settled, ← Reply.order_ofSign]
  exact judged.order_eq

theorem answerAt_eq_zero_iff (position : Nat) :
    answerAt calls position = 0 ↔ (calls position).1.Level (calls position).2 := by
  have judged := compareNatural_judged (.after calls position) (calls position).1 (calls position).2
  have told := judged.order_eq
  rw [Reply.order_ofSign] at told
  rw [← Int.compare_eq_eq]
  change compare (compareNatural _ _ _).1 0 = .eq ↔ _
  rw [told]
  exact ⟨level_of_order_eq judged.settled, order_eq_of_level _⟩

end History

theorem sign_eq_signOf (answer : Int) : answer.sign = signOf (compare answer 0) := by
  rcases Int.lt_trichotomy answer 0 with below | rfl | above
  · rw [Int.compare_eq_lt.2 below, Int.sign_eq_neg_one_of_neg below]
    rfl
  · rfl
  · rw [Int.compare_eq_gt.2 above, Int.sign_eq_one_of_pos above]
    rfl

theorem signOf_swap (answer : Ordering) : signOf answer.swap = -signOf answer := by
  cases answer <;> rfl

/--
All answers of an endless history follow one total preorder, whichever calls come first and whatever
comes between: opposite calls have opposite answers, equal calls answers of one sign, and what is not
above something that is not above a third is not above the third. Zero is answered exactly for values
at one place, so never for two identities.
-/
theorem answers_follow_one_order (calls : Nat → Value × Value) :
    (∀ count, compareEach {} ((List.range count).map calls) =
      (List.range count).map (answerAt calls)) ∧
    (∃ order : Value → Value → Ordering, TransCmp order ∧ ∀ position,
      compare (answerAt calls position) 0 = order (calls position).1 (calls position).2) ∧
    (∀ first second, calls second = (calls first).swap →
      (answerAt calls second).sign = -(answerAt calls first).sign) ∧
    (∀ first second, calls second = calls first →
      (answerAt calls second).sign = (answerAt calls first).sign) ∧
    (∀ low middle high first second third, calls first = (low, middle) →
      calls second = (middle, high) → calls third = (low, high) →
        answerAt calls first ≤ 0 → answerAt calls second ≤ 0 → answerAt calls third ≤ 0) ∧
    (∀ position, answerAt calls position = 0 ↔ (calls position).1.Level (calls position).2) ∧
    ∀ position, (calls position).1.isIdentity → (calls position).1 ≠ (calls position).2 →
      answerAt calls position ≠ 0 := by
  have isLE_iff (position : Nat) : answerAt calls position ≤ 0 ↔
      (lastingOrder calls (calls position).1 (calls position).2).isLE := by
    rw [← answerAt_follows, Int.isLE_compare]
  refine ⟨?_, ⟨lastingOrder calls, inferInstance, answerAt_follows calls⟩, ?_, ?_, ?_,
    answerAt_eq_zero_iff calls, ?_⟩
  · intro count
    rw [List.range_eq_range']
    exact compareEach_from calls 0 count
  · intro first second opposite
    have swapped : lastingOrder calls (calls first).2 (calls first).1 =
        (lastingOrder calls (calls first).1 (calls first).2).swap := OrientedCmp.eq_swap
    rw [sign_eq_signOf, sign_eq_signOf, answerAt_follows, answerAt_follows, opposite, Prod.fst_swap,
      Prod.snd_swap, swapped, signOf_swap]
  · intro first second same
    rw [sign_eq_signOf, sign_eq_signOf, answerAt_follows, answerAt_follows, same]
  · intro low middle high first second third firstCall secondCall thirdCall
    rw [isLE_iff, isLE_iff, isLE_iff, firstCall, secondCall, thirdCall]
    exact TransCmp.isLE_trans
  · intro position identity distinct equal
    exact distinct (eq_of_level ((answerAt_eq_zero_iff calls position).1 equal) identity)

theorem answers_follow_one_order_of_objects :
    ∃ calls : Nat → Value × Value, calls 0 = (.object 8, .object 3) ∧ calls 1 = (.object 3, .null) ∧
      calls 2 = (.object 3, .object 8) ∧ answerAt calls 0 ≠ 0 ∧
        (answerAt calls 2).sign = -(answerAt calls 0).sign := by
  let calls : Nat → Value × Value
    | 0 => (.object 8, .object 3)
    | 1 => (.object 3, .null)
    | _ => (.object 3, .object 8)
  obtain ⟨_, _, opposite, _, _, _, distinct⟩ := answers_follow_one_order calls
  exact ⟨calls, rfl, rfl, rfl, distinct 0 rfl (by decide), opposite 0 2 rfl⟩

end Collections
