import Collections.Ordinals
import Collections.Reply

set_option autoImplicit false

namespace Collections

open Std

instance : LE Ordinals := ⟨fun early late => early.known <+: late.known⟩

namespace Ordinals

theorem le_refl (ordinals : Ordinals) : ordinals ≤ ordinals := List.prefix_refl ordinals.known

theorem le_trans {first second third : Ordinals} (early : first ≤ second) (late : second ≤ third) :
    first ≤ third :=
  List.IsPrefix.trans early late

theorem idxOf_eq_of_le {early late : Ordinals} (extended : early ≤ late) {identity : Value}
    (known : identity ∈ early.known) : late.known.idxOf identity = early.known.idxOf identity := by
  obtain ⟨added, whole⟩ := extended
  rw [← whole, List.idxOf_append, if_pos known]

theorem mem_of_le {early late : Ordinals} (extended : early ≤ late) {identity : Value}
    (known : identity ∈ early.known) : identity ∈ late.known :=
  List.IsPrefix.subset extended known

theorem le_ordinal (ordinals : Ordinals) (identity : Value) :
    ordinals ≤ (ordinals.ordinal identity).2 := by
  unfold ordinal
  split
  · exact le_refl ordinals
  · exact List.prefix_append ordinals.known [identity]

theorem mem_ordinal (ordinals : Ordinals) (identity : Value) :
    identity ∈ (ordinals.ordinal identity).2.known := by
  unfold ordinal
  split
  next position found =>
    obtain ⟨inside, same, _⟩ := List.idxOf?_eq_some_iff.1 found
    exact same ▸ List.getElem_mem inside
  · simp

theorem ordinal_eq_idxOf (ordinals : Ordinals) (identity : Value) :
    (ordinals.ordinal identity).1 = (ordinals.ordinal identity).2.known.idxOf identity := by
  unfold ordinal
  split
  next position found =>
    obtain ⟨inside, same, first⟩ := List.idxOf?_eq_some_iff.1 found
    have known : identity ∈ ordinals.known := same ▸ List.getElem_mem inside
    have least := List.idxOf_lt_length_of_mem known
    have there := List.getElem_idxOf least
    refine Nat.le_antisymm (Nat.le_of_not_lt fun below => first _ below there) ?_
    refine Nat.le_of_not_lt fun above => ?_
    simpa [same] using List.not_of_lt_findIdx above
  next missing =>
    have unknown : identity ∉ ordinals.known := List.idxOf?_eq_none_iff.1 missing
    simp [List.idxOf_append, unknown]

theorem ordinal_of_mem {ordinals : Ordinals} {identity : Value}
    (known : identity ∈ ordinals.known) : (ordinals.ordinal identity).2 = ordinals := by
  unfold ordinal
  split
  · rfl
  next missing => exact absurd known (List.idxOf?_eq_none_iff.1 missing)

end Ordinals

namespace Value

-- Whether a value stands for itself, so that only its ordinal places it.
def isIdentity : Value → Bool
  | .symbol _ | .object _ | .intrinsic _ => true
  | _ => false

def tier (value : Value) : Int :=
  match value.place? with
  | some place => place.1
  | none => -2

def units (value : Value) : Int :=
  match value.place? with
  | some place => place.2
  | none => 0

def codeUnits : Value → List Nat
  | .text content => Text.codeUnits content
  | _ => []

end Value

namespace Ordinals

def standing (ordinals : Ordinals) (value : Value) : Nat :=
  match value with
  | .bool flag => flag.toNat
  | value => if value.isIdentity then ordinals.known.idxOf value else 0

def order (ordinals : Ordinals) : Value → Value → Ordering :=
  compareLex (compareOn Value.rank) (compareLex (compareOn ordinals.standing)
    (compareLex (compareOn Value.tier) (compareLex (compareOn Value.units)
      (compareOn Value.codeUnits))))

instance (ordinals : Ordinals) : TransCmp ordinals.order := by
  unfold order
  infer_instance

/-- Two values whose order no later ordinal changes. -/
def Settled (ordinals : Ordinals) (left right : Value) : Prop :=
  left.isIdentity → left.rank = right.rank →
    left = right ∨ (left ∈ ordinals.known ∧ right ∈ ordinals.known)

theorem isIdentity_eq_of_rank_eq {left right : Value} (sameRank : left.rank = right.rank) :
    left.isIdentity = right.isIdentity := by
  cases left <;> cases right <;> simp_all [Value.rank, Value.isIdentity]

theorem Settled.symm {ordinals : Ordinals} {left right : Value}
    (settled : ordinals.Settled left right) : ordinals.Settled right left := by
  intro identity sameRank
  rw [isIdentity_eq_of_rank_eq sameRank] at identity
  exact (settled identity sameRank.symm).imp Eq.symm And.symm

theorem Settled.of_le {early late : Ordinals} (extended : early ≤ late) {left right : Value}
    (settled : early.Settled left right) : late.Settled left right := by
  intro identity sameRank
  refine (settled identity sameRank).imp id fun known => ?_
  exact ⟨mem_of_le extended known.1, mem_of_le extended known.2⟩

theorem standing_eq_idxOf (ordinals : Ordinals) {value : Value} (identity : value.isIdentity) :
    ordinals.standing value = ordinals.known.idxOf value := by
  cases value <;> simp_all [standing, Value.isIdentity]

theorem standing_congr (early late : Ordinals) {value : Value} (plain : ¬ value.isIdentity) :
    late.standing value = early.standing value := by
  cases value <;> simp_all [standing, Value.isIdentity]

theorem order_of_rank_ne (ordinals : Ordinals) {left right : Value}
    (differ : left.rank ≠ right.rank) : ordinals.order left right = compare left.rank right.rank := by
  have decided : compare left.rank right.rank ≠ .eq := fun same => differ (Int.compare_eq_eq.1 same)
  unfold order compareLex compareOn
  cases result : compare left.rank right.rank <;> simp_all

theorem order_of_rank_eq (ordinals : Ordinals) (left right : Value) (same : left.rank = right.rank) :
    ordinals.order left right = (compare (ordinals.standing left) (ordinals.standing right)).then
      ((compare left.tier right.tier).then
        ((compare left.units right.units).then (compare left.codeUnits right.codeUnits))) := by
  unfold order compareLex compareOn
  rw [Int.compare_eq_eq.2 same]
  rfl

theorem order_of_identities (ordinals : Ordinals) {left right : Value}
    (same : left.rank = right.rank) (leftIdentity : left.isIdentity)
    (rightIdentity : right.isIdentity) :
    ordinals.order left right =
      compare (ordinals.known.idxOf left) (ordinals.known.idxOf right) := by
  rw [order_of_rank_eq ordinals _ _ same, standing_eq_idxOf ordinals leftIdentity,
    standing_eq_idxOf ordinals rightIdentity]
  cases left <;> cases right <;>
    simp_all [Value.isIdentity, Value.tier, Value.units, Value.codeUnits, Value.place?]

theorem order_of_plain (ordinals : Ordinals) {left right : Value} (same : left.rank = right.rank)
    (plain : ¬ left.isIdentity) :
    ordinals.order left right = ({} : Ordinals).order left right := by
  have rightPlain : ¬ right.isIdentity := isIdentity_eq_of_rank_eq same ▸ plain
  rw [order_of_rank_eq ordinals _ _ same, order_of_rank_eq {} _ _ same, standing_congr {} ordinals plain,
    standing_congr {} ordinals rightPlain]

theorem order_eq_of_settled {early late : Ordinals} (extended : early ≤ late) {left right : Value}
    (settled : early.Settled left right) : late.order left right = early.order left right := by
  by_cases sameRank : left.rank = right.rank
  · by_cases identity : left.isIdentity
    · rcases settled identity sameRank with rfl | ⟨leftKnown, rightKnown⟩
      · have lateSame : late.order left left = .eq := ReflCmp.compare_self
        have earlySame : early.order left left = .eq := ReflCmp.compare_self
        rw [lateSame, earlySame]
      · have rightIdentity : right.isIdentity := isIdentity_eq_of_rank_eq sameRank ▸ identity
        rw [order_of_identities late sameRank identity rightIdentity,
          order_of_identities early sameRank identity rightIdentity,
          idxOf_eq_of_le extended leftKnown, idxOf_eq_of_le extended rightKnown]
    · rw [order_of_plain late sameRank identity, order_of_plain early sameRank identity]
  · rw [order_of_rank_ne late sameRank, order_of_rank_ne early sameRank]

theorem rank_le_of_isLE {ordinals : Ordinals} {left right : Value}
    (ascends : (ordinals.order left right).isLE) : left.rank ≤ right.rank := by
  by_cases same : left.rank = right.rank
  · exact Int.le_of_eq same
  · rw [order_of_rank_ne ordinals same] at ascends
    exact Int.isLE_compare.1 ascends

-- What lies between two values of one rank is of that rank, so it is settled with both or neither.
theorem Settled.trans {ordinals : Ordinals} {low middle high : Value}
    (early : ordinals.Settled low middle) (late : ordinals.Settled middle high)
    (lower : (ordinals.order low middle).isLE) (upper : (ordinals.order middle high).isLE) :
    ordinals.Settled low high := by
  intro identity sameRank
  have below : low.rank ≤ middle.rank := rank_le_of_isLE lower
  have above : middle.rank ≤ high.rank := rank_le_of_isLE upper
  have lowRank : low.rank = middle.rank := by omega
  have highRank : middle.rank = high.rank := by omega
  have middleIdentity : middle.isIdentity := isIdentity_eq_of_rank_eq lowRank ▸ identity
  rcases early identity lowRank with rfl | ⟨lowKnown, middleKnown⟩
  · exact late middleIdentity highRank
  · rcases late middleIdentity highRank with rfl | ⟨_, highKnown⟩
    · exact .inr ⟨lowKnown, middleKnown⟩
    · exact .inr ⟨lowKnown, highKnown⟩

end Ordinals

theorem compareUnits_eq_compare (left right : List Nat) :
    Text.compareUnits left right = compare left right := by
  induction left generalizing right with
  | nil => cases right <;> rfl
  | cons first rest ih =>
    cases right with
    | nil => rfl
    | cons other others =>
      simp only [Text.compareUnits, ih, List.compare_cons_cons, Nat.compare_eq_ite_lt]
      split
      · rfl
      · split <;> rfl

namespace Reply

theorem order_ofSign (sign : Int) : (ofSign sign).order = compare sign 0 := by
  rw [Int.compare_eq_ite_lt]
  unfold ofSign
  split
  · rfl
  · split
    · rw [if_neg (by omega)]
    · rw [if_pos (by omega)]

theorem order_ofSign_sub (left right : Int) : (ofSign (left - right)).order = compare left right := by
  rw [order_ofSign, Int.compare_eq_ite_lt, Int.compare_eq_ite_lt]
  grind

theorem order_ofSign_signOf (answer : Ordering) : (ofSign (signOf answer)).order = answer := by
  cases answer <;> rfl

end Reply

theorem compare_natCast (left right : Nat) : compare (left : Int) right = compare left right := by
  rw [Int.compare_eq_ite_lt, Nat.compare_eq_ite_lt]
  grind

structure Judged (ordinals : Ordinals) (left right : Value) (outcome : Int × Ordinals) : Prop where
  extended : ordinals ≤ outcome.2
  settled : outcome.2.Settled left right
  order_eq : (Reply.ofSign outcome.1).order = outcome.2.order left right
  unchanged : ordinals.Settled left right → outcome.2 = ordinals

namespace Judged

variable {ordinals : Ordinals} {left right : Value}

theorem of_order_eq {sign : Int} (settled : ordinals.Settled left right)
    (judged : (Reply.ofSign sign).order = ordinals.order left right) :
    Judged ordinals left right (sign, ordinals) :=
  ⟨Ordinals.le_refl ordinals, settled, judged, fun _ => rfl⟩

theorem of_rank_ne (differ : left.rank ≠ right.rank) :
    Judged ordinals left right (left.rank - right.rank, ordinals) := by
  refine of_order_eq (fun _ same => absurd same differ) ?_
  rw [Reply.order_ofSign_sub, Ordinals.order_of_rank_ne ordinals differ]

end Judged

theorem compareReferences_judged (ordinals : Ordinals) {left right : Value}
    (identity : left.isIdentity) (sameRank : left.rank = right.rank) (distinct : left ≠ right) :
    Judged ordinals left right (compareReferences ordinals left right) := by
  have rightIdentity : right.isIdentity := Ordinals.isIdentity_eq_of_rank_eq sameRank ▸ identity
  -- The left value gets its ordinal first; the right one's does not change it.
  let middle := (ordinals.ordinal left).2
  let last := (middle.ordinal right).2
  have early : ordinals ≤ middle := Ordinals.le_ordinal ordinals left
  have late : middle ≤ last := Ordinals.le_ordinal middle right
  have leftKnown : left ∈ middle.known := Ordinals.mem_ordinal ordinals left
  have rightKnown : right ∈ last.known := Ordinals.mem_ordinal middle right
  have leftPlace : (ordinals.ordinal left).1 = last.known.idxOf left := by
    rw [Ordinals.ordinal_eq_idxOf, Ordinals.idxOf_eq_of_le late leftKnown]
  have rightPlace : (middle.ordinal right).1 = last.known.idxOf right :=
    Ordinals.ordinal_eq_idxOf middle right
  refine ⟨Ordinals.le_trans early late,
    fun _ _ => .inr ⟨Ordinals.mem_of_le late leftKnown, rightKnown⟩, ?_, fun settled => ?_⟩
  · change (Reply.ofSign (((ordinals.ordinal left).1 : Int) - (middle.ordinal right).1)).order =
      last.order left right
    rw [Reply.order_ofSign_sub, compare_natCast, leftPlace, rightPlace,
      Ordinals.order_of_identities last sameRank identity rightIdentity]
  · obtain ⟨leftThere, rightThere⟩ := (settled identity sameRank).resolve_left distinct
    change last = ordinals
    have same : middle = ordinals := Ordinals.ordinal_of_mem leftThere
    rw [← same] at rightThere
    rw [← same]
    exact Ordinals.ordinal_of_mem rightThere

theorem place?_eq_of_same {left right : Number} (same : left.same right) :
    left.place? = right.place? := by
  rcases left with _ | _ | ⟨_, leftSignificand, _, _⟩ <;>
    rcases right with _ | _ | ⟨_, rightSignificand, _, _⟩ <;>
    simp_all [Number.same, Number.isZero]
  rcases same with ⟨leftZero, rightZero⟩ | same
  · simp [Number.place?, Number.units?, leftZero, rightZero]
  · simp [same]

theorem order_eq_of_identical (ordinals : Ordinals) {left right : Value}
    (identical : left.identical right) :
    ordinals.order left right = .eq ∧ ordinals.Settled left right := by
  unfold Value.identical at identical
  split at identical
  next left right =>
    have place : left.place? = right.place? := place?_eq_of_same identical
    constructor
    · rw [Ordinals.order_of_rank_eq ordinals (.number left) (.number right) rfl]
      simp [Ordinals.standing, Value.isIdentity, Value.tier, Value.units, Value.codeUnits,
        Value.place?, place]
    · intro identity
      simp [Value.isIdentity] at identity
  next =>
    have same : left = right := eq_of_beq identical
    subst same
    exact ⟨ReflCmp.compare_self, fun _ _ => .inl rfl⟩

theorem tier_of_place {value : Value} {place : Int × Int} (placed : value.place? = some place) :
    -1 ≤ place.1 := by
  unfold Value.place? at placed
  split at placed
  next held =>
    rcases held with _ | negative | ⟨_, _, _, _⟩
    · cases placed
    · cases negative <;> cases placed <;> decide
    · cases placed
      exact Int.neg_nonpos_of_nonneg Int.one_nonneg
  next =>
    cases placed
    exact Int.neg_nonpos_of_nonneg Int.one_nonneg
  next => cases placed

theorem order_of_places (left right : Int × Int) :
    (Reply.ofSign (if Number.placeLess left right then -1
      else if Number.placeLess right left then 1 else 0)).order =
      (compare left.1 right.1).then (compare left.2 right.2) := by
  rw [Int.compare_eq_ite_lt left.1, Int.compare_eq_ite_lt left.2]
  unfold Number.placeLess Reply.ofSign
  rcases Int.lt_trichotomy left.1 right.1 with tier | tier | tier <;>
    rcases Int.lt_trichotomy left.2 right.2 with units | units | units <;>
    simp [tier, units, Int.lt_asymm, Int.ne_of_gt]

theorem order_compareNumeric (ordinals : Ordinals) {left right : Value}
    (leftNumeric : left.rank = 3) (rightNumeric : right.rank = 3) :
    (Reply.ofSign (compareNumeric left right)).order = ordinals.order left right := by
  have plain {value : Value} (numeric : value.rank = 3) :
      ordinals.standing value = 0 ∧ value.codeUnits = [] := by
    cases value <;>
      simp_all [Value.rank, Ordinals.standing, Value.isIdentity, Value.codeUnits]
  rw [Ordinals.order_of_rank_eq ordinals _ _ (leftNumeric.trans rightNumeric.symm),
    (plain leftNumeric).1, (plain leftNumeric).2, (plain rightNumeric).1, (plain rightNumeric).2]
  unfold compareNumeric Value.tier Value.units
  cases leftPlace : left.place? with
  | none =>
    cases rightPlace : right.place? with
    | none => rfl
    | some place =>
      have above := tier_of_place rightPlace
      simp only [Reply.order_ofSign]
      rw [Int.compare_eq_lt.2 (by omega : (-2 : Int) < place.1)]
      rfl
  | some leftAt =>
    cases rightPlace : right.place? with
    | none =>
      have above := tier_of_place leftPlace
      simp only [Reply.order_ofSign]
      rw [Int.compare_eq_gt.2 (by omega : (-2 : Int) < leftAt.1)]
      rfl
    | some rightAt =>
      have decided := order_of_places leftAt rightAt
      simp only at decided ⊢
      rw [decided]
      simp

theorem compareNatural_judged (ordinals : Ordinals) (left right : Value) :
    Judged ordinals left right (compareNatural ordinals left right) := by
  unfold compareNatural
  split
  next identical =>
    obtain ⟨same, settled⟩ := order_eq_of_identical ordinals identical
    exact .of_order_eq settled same.symm
  next notIdentical =>
    split
    next differ => exact .of_rank_ne differ
    next sameRank =>
      have sameRank : left.rank = right.rank := Decidable.not_not.1 sameRank
      -- Only what is not a number differs from itself, so two identities are distinct here.
      have distinct : left ≠ right ∨ ¬ left.isIdentity := by
        by_cases same : left = right
        · subst same
          cases left <;> simp_all [Value.identical, Value.isIdentity]
        · exact .inl same
      split
      next leftValue rightValue =>
        refine .of_order_eq (fun identity => by simp [Value.isIdentity] at identity) ?_
        rw [Reply.order_ofSign_sub, compare_natCast, Ordinals.order_of_rank_eq ordinals _ _ sameRank]
        simp [Ordinals.standing, Value.tier, Value.units, Value.codeUnits, Value.place?]
      next leftText rightText =>
        refine .of_order_eq (fun identity => by simp [Value.isIdentity] at identity) ?_
        rw [Reply.order_ofSign_signOf, Text.order, compareUnits_eq_compare,
          Ordinals.order_of_rank_eq ordinals _ _ sameRank]
        simp [Ordinals.standing, Value.isIdentity, Value.tier, Value.units, Value.codeUnits,
          Value.place?]
      · exact compareReferences_judged ordinals rfl sameRank (distinct.resolve_right (· rfl))
      · exact compareReferences_judged ordinals rfl sameRank (distinct.resolve_right (· rfl))
      · exact compareReferences_judged ordinals rfl sameRank (distinct.resolve_right (· rfl))
      next notBool notText notSymbol notObject notIntrinsic =>
        have numeric : left.rank = 3 := by
          cases left <;> cases right <;> simp_all [Value.rank, Value.identical]
        refine .of_order_eq (fun identity => ?_)
          (order_compareNumeric ordinals numeric (sameRank ▸ numeric))
        cases left <;> simp_all [Value.isIdentity]

theorem compareNatural_of_lt {ordinals : Ordinals} {left right : Value}
    (settled : ordinals.Settled left right) (less : ordinals.order left right = .lt) :
    (compareNatural ordinals left right).1 < 0 ∧ (compareNatural ordinals left right).2 = ordinals := by
  have judged := compareNatural_judged ordinals left right
  have unchanged := judged.unchanged settled
  refine ⟨?_, unchanged⟩
  have told := judged.order_eq
  rw [unchanged, less, Reply.order_ofSign] at told
  exact Int.compare_eq_lt.1 told

theorem Ordinals.eq_of_order_eq {ordinals : Ordinals} {left right : Value}
    (settled : ordinals.Settled left right) (identity : left.isIdentity)
    (equal : ordinals.order left right = .eq) : left = right := by
  by_cases sameRank : left.rank = right.rank
  · rcases settled identity sameRank with same | ⟨leftKnown, rightKnown⟩
    · exact same
    · have rightIdentity : right.isIdentity := isIdentity_eq_of_rank_eq sameRank ▸ identity
      rw [order_of_identities ordinals sameRank identity rightIdentity] at equal
      have same : ordinals.known.idxOf left = ordinals.known.idxOf right :=
        Nat.compare_eq_eq.1 equal
      have leftAt := List.getElem_idxOf (List.idxOf_lt_length_of_mem leftKnown)
      have rightAt := List.getElem_idxOf (List.idxOf_lt_length_of_mem rightKnown)
      rw [← leftAt, ← rightAt]
      congr 1
  · rw [order_of_rank_ne ordinals sameRank] at equal
    exact absurd (Int.compare_eq_eq.1 equal) sameRank

end Collections
