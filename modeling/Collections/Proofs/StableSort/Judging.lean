import Collections.Proofs.Keeping
import Collections.Proofs.Ranking
import Collections.Proofs.StableSort.Permuting
import Collections.Proofs.StableSort.Sorting
import Mathlib.Data.Ordering.Lemmas

set_option autoImplicit false

namespace Collections

open Std

variable {Outside : Type}

section Judging

variable {callbacks : Callbacks Outside} {comparator : Option ComparatorId} {ranking : Ranking}

def Callbacks.Judges (callbacks : Callbacks Outside) (comparator : Option ComparatorId)
    (ranking : Ranking) : Prop :=
  ∀ left right before, Ends (callbacks.reply comparator left right) before
    (fun reply after => before.ordinals ≤ after.ordinals ∧
      ranking.Settled after.ordinals left right ∧
        reply.isBelow = (ranking.order after.ordinals left right == .lt))
    fun _ _ => True

theorem Callbacks.Ranks.judges (ranks : callbacks.Ranks comparator ranking) :
    callbacks.Judges comparator ranking := by
  refine fun left right before => (ranks left right before).ends.imp ?_ fun _ _ failed => failed
  rintro reply after ⟨advances, settled, order_eq, _⟩
  exact ⟨advances.ordinals, settled, by rw [Reply.isBelow, order_eq]⟩

end Judging

section Below

variable (below : Value → Value → Prop) [DecidableRel below] [IsStrictWeakOrder Value below]

theorem not_below_trans {low middle high : Value} (first : ¬below middle low)
    (second : ¬below high middle) : ¬below high low := by
  intro under
  by_cases lower : below low middle
  · exact second (trans_of below under lower)
  by_cases higher : below middle high
  · exact first (trans_of below higher under)
  -- The middle value is on a level with both others, and so they are with each other.
  have level := IsStrictWeakOrder.incomp_trans low middle high ⟨lower, first⟩ ⟨higher, second⟩
  exact level.2 under

instance : TransCmp (cmpUsing below) where
  eq_swap {left right} := by
    have asymmetric := asymm_of below (a := left) (b := right)
    unfold cmpUsing
    by_cases lower : below left right <;> by_cases higher : below right left <;> simp_all
  isLE_trans {low middle high} first second := by
    have isLE (left right : Value) : (cmpUsing below left right).isLE ↔ ¬below right left := by
      rw [← Ordering.ne_gt_iff_isLE, cmpUsing_eq_gt]
    rw [isLE] at *
    exact not_below_trans below first second

def Ranking.ofBelow : Ranking := .constant (cmpUsing below)

theorem Callbacks.judges_ofBelow {callbacks : Callbacks Outside} {comparator : ComparatorId}
    (answers : ∀ left right before, Ends (callbacks.compare comparator left right) before
      (fun reply after => before.ordinals ≤ after.ordinals ∧ (reply.isBelow ↔ below left right))
      fun _ _ => True) :
    callbacks.Judges (some comparator) (.ofBelow below) := by
  refine fun left right before => (answers left right before).imp ?_ fun _ _ failed => failed
  rintro reply after ⟨extended, told⟩
  refine ⟨extended, trivial, Bool.eq_iff_iff.2 (told.trans ?_)⟩
  have lower : (cmpUsing below left right = .lt) = below left right := cmpUsing_eq_lt left right
  simp [Ranking.ofBelow, Ranking.constant, lower]

end Below

namespace StableSort

variable {callbacks : Callbacks Outside} {comparator : Option ComparatorId} {ranking : Ranking}

-- Actions that only hand out ordinals and answer, if `last` extends what they leave, as images do.
def settling (Outside : Type) (last : Ordinals) : Correspondence (Action Outside) Id where
  Holds action image := ∀ before, Ends action before
    (fun result after => before.ordinals ≤ after.ordinals ∧ (after.ordinals ≤ last → result = image))
    fun _ _ => True
  returns _ before := ⟨Ordinals.le_refl before.ordinals, fun _ => rfl⟩
  chains := by
    intro _ _ action image next nextImage first second before
    refine (first before).bind fun result middle answered => ?_
    refine (second result middle).imp (fun final after told => ?_) fun _ _ failed => failed
    refine ⟨Ordinals.le_trans answered.1 told.1, fun extended => ?_⟩
    rw [told.2 extended, answered.2 (Ordinals.le_trans told.1 extended)]
    rfl

theorem below_settles (judges : callbacks.Judges comparator ranking) (last : Ordinals)
    (left right : Value) :
    (settling Outside last).Holds (callbacks.below comparator left right)
      (below (ranking.order last) left right) := by
  intro before
  refine (judges left right before).bind fun reply after told => ?_
  obtain ⟨extended, settled, judged⟩ := told
  unfold Reply.sortsBelow
  split
  next => trivial
  next =>
    refine ⟨extended, fun later => ?_⟩
    rw [judged, ← ranking.agrees later settled]
    rfl

theorem sort_settles (judges : callbacks.Judges comparator ranking) (values : List Value)
    (before : State Outside) :
    Ends (sort (callbacks.below comparator) values) before
      (fun sorted after => before.ordinals ≤ after.ordinals ∧ ∀ late, after.ordinals ≤ late →
        Ascending (ranking.order late) sorted ∧ KeepsClasses (ranking.order late) values sorted)
      fun _ _ => True := by
  have sorts (late : Ordinals) :=
    (settling Outside late).holds_sort (below_settles judges late) values before
  unfold Ends at *
  split
  next sorted after answered =>
    simp only [answered] at sorts
    refine ⟨(sorts {}).1, fun late extended => ?_⟩
    rw [(sorts late).2 extended]
    exact sort_sorts values
  next => trivial

theorem sort_succeeds (answers : ∀ left right before,
      Succeeds (callbacks.below comparator left right) before fun _ _ => True)
    (values : List Value) (before : State Outside) :
    Succeeds (sort (callbacks.below comparator) values) before fun sorted _ => sorted.Perm values := by
  refine ((sort_ends _ values before).imp (fun _ _ permuted => permuted) ?_).succeeds
  rintro failure after ⟨left, right, early, late, broke⟩
  obtain ⟨_, _, answered, _⟩ := answers left right early
  rw [broke] at answered
  cases answered

end StableSort

end Collections
