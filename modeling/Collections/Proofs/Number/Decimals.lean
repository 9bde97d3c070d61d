import Collections.Number.Decimal
import Collections.Proofs.Number.Rounding

set_option autoImplicit false

namespace Collections

namespace Decimal

def tenTo (exponent : Nat) : Nat := Nat.pow 10 exponent

theorem tenTo_zero : tenTo 0 = 1 := rfl

theorem tenTo_succ (exponent : Nat) : tenTo (exponent + 1) = tenTo exponent * 10 := rfl

theorem tenTo_add (first second : Nat) : tenTo (first + second) = tenTo first * tenTo second :=
  Nat.pow_add 10 first second

theorem tenTo_pos (exponent : Nat) : 0 < tenTo exponent := Nat.pow_pos (by decide)

section Counting

variable {value count : Nat}

theorem digitCount_pos (value : Nat) : 0 < digitCount value := by
  unfold digitCount
  split
  · exact Nat.one_pos
  · exact Nat.succ_pos _

theorem digitCount_eq_length (value : Nat) : digitCount value = (Nat.toDigits 10 value).length := by
  induction value using digitCount.induct with
  | case1 value small => rw [digitCount, if_pos small, Nat.toDigits_of_lt_base small, List.length_singleton]
  | case2 value large ih =>
    rw [digitCount, if_neg large, Nat.toDigits_of_base_le (by decide) (Nat.le_of_not_lt large), ih,
      List.length_append, List.length_singleton]

theorem digitCount_le_iff (positive : 0 < count) : digitCount value ≤ count ↔ value < tenTo count := by
  rw [digitCount_eq_length]
  exact Nat.length_toDigits_le_iff (by decide) positive

theorem digitCount_mul (positive : value ≠ 0) (count : Nat) :
    digitCount (value * tenTo count) = digitCount value + count := by
  induction count with
  | zero => rw [tenTo_zero, Nat.mul_one, Nat.add_zero]
  | succ count ih =>
    have large : value * tenTo count ≠ 0 := Nat.mul_ne_zero positive (Nat.ne_of_gt (tenTo_pos count))
    rw [tenTo_succ, ← Nat.mul_assoc, digitCount, if_neg (by omega), Nat.mul_div_cancel _ (by decide), ih,
      Nat.add_assoc]

theorem digitCount_div (large : tenTo count ≤ value) :
    digitCount (value / tenTo count) + count = digitCount value := by
  induction count generalizing value with
  | zero => rw [tenTo_zero, Nat.div_one, Nat.add_zero]
  | succ count ih =>
    have fewer : tenTo count ≤ value / 10 := (Nat.le_div_iff_mul_le (by decide)).2 large
    have some : ¬ value < 10 := by
      have positive := tenTo_pos count
      omega
    rw [tenTo_succ, Nat.mul_comm, ← Nat.div_div_eq_div_mul, digitCount.eq_def value, if_neg some,
      ← ih fewer, Nat.add_assoc]

end Counting

section Reading

variable {negative : Bool} {decimal : Decimal}

structure Fits (decimal : Decimal) : Prop where
  positive : decimal.coefficient ≠ 0
  above : -324 < decimal.position
  below : decimal.position < 310

theorem toNumber_eq_nearest (fits : decimal.Fits) (negative : Bool) :
    decimal.toNumber negative = .nearest negative
      (decimal.coefficient * tenTo decimal.exponent.toNat * Number.one) (tenTo (-decimal.exponent).toNat) := by
  have inside : ¬ (decimal.coefficient = 0 ∨ decimal.position ≤ -324) := by
    have above := fits.above
    rintro (zero | low)
    · exact fits.positive zero
    · omega
  rw [toNumber, if_neg inside, if_neg (Int.not_le.2 fits.below)]
  by_cases whole : 0 ≤ decimal.exponent
  next =>
    have none : (-decimal.exponent).toNat = 0 := by omega
    rw [if_pos whole, none, tenTo_zero]
    exact Number.ofScaled_eq_nearest negative
      (Nat.mul_ne_zero fits.positive (Nat.ne_of_gt (tenTo_pos _)))
  next =>
    have none : decimal.exponent.toNat = 0 := by omega
    rw [if_neg whole, none, tenTo_zero, Nat.mul_one]
    rfl

theorem toNumber_negate (decimal : Decimal) :
    decimal.toNumber true = (decimal.toNumber false).negate := by
  unfold toNumber
  split
  · rfl
  · split
    · rfl
    · split
      · exact Number.ofScaled_negate _ _
      · exact Number.nearest_negate _ _

def padded (decimal : Decimal) (zeros : Nat) : Decimal :=
  ⟨decimal.coefficient * tenTo zeros, decimal.exponent - zeros⟩

theorem toNumber_padded (negative : Bool) (decimal : Decimal) (zeros : Nat) :
    (decimal.padded zeros).toNumber negative = decimal.toNumber negative := by
  by_cases zero : decimal.coefficient = 0
  next => simp [toNumber, padded, zero]
  next =>
    have more : (decimal.padded zeros).coefficient ≠ 0 := Nat.mul_ne_zero zero (Nat.ne_of_gt (tenTo_pos zeros))
    have position : (decimal.padded zeros).position = decimal.position := by
      have count := digitCount_mul zero zeros
      unfold Decimal.position padded
      dsimp only
      rw [count]
      omega
    -- Zeros do not move the place of the point, so that both are beyond the range or neither is.
    by_cases low : decimal.position ≤ -324
    next => rw [toNumber, toNumber, position, if_pos (.inr low), if_pos (.inr low)]
    next =>
      by_cases high : 310 ≤ decimal.position
      next => simp [toNumber, position, zero, more, low, high]
      next =>
        have fits : decimal.Fits := ⟨zero, Int.not_le.1 low, Int.not_le.1 high⟩
        have fitting : (decimal.padded zeros).Fits := ⟨more, position ▸ fits.above, position ▸ fits.below⟩
        rw [toNumber_eq_nearest fits, toNumber_eq_nearest fitting]
        refine Number.nearest_congr negative (tenTo_pos _) (tenTo_pos _) ?_
        have powers : tenTo zeros * tenTo (decimal.exponent - zeros).toNat *
            tenTo (-decimal.exponent).toNat =
              tenTo decimal.exponent.toNat * tenTo (-(decimal.exponent - zeros)).toNat := by
          rw [← tenTo_add, ← tenTo_add, ← tenTo_add]
          congr 1
          omega
        calc decimal.coefficient * tenTo zeros * tenTo (decimal.exponent - zeros).toNat * Number.one *
              tenTo (-decimal.exponent).toNat
            = decimal.coefficient * Number.one * (tenTo zeros * tenTo (decimal.exponent - zeros).toNat *
                tenTo (-decimal.exponent).toNat) := by ac_rfl
          _ = decimal.coefficient * tenTo decimal.exponent.toNat * Number.one *
                tenTo (-(decimal.exponent - zeros)).toNat := by rw [powers]; ac_rfl

theorem trimmed_toNumber (negative : Bool) (decimal : Decimal) :
    decimal.trimmed.toNumber negative = decimal.toNumber negative := by
  induction decimal using trimmed.induct with
  | case1 decimal trailing ih =>
    rw [trimmed, dif_pos trailing, ih]
    have whole : (⟨decimal.coefficient / 10, decimal.exponent + 1⟩ : Decimal).padded 1 = decimal := by
      have coefficient : decimal.coefficient / 10 * tenTo 1 = decimal.coefficient :=
        Nat.div_mul_cancel (Nat.dvd_of_mod_eq_zero trailing.2)
      have exponent : decimal.exponent + 1 - (1 : Nat) = decimal.exponent := by omega
      rw [padded, coefficient, exponent]
    rw [← toNumber_padded negative _ 1, whole]
  | case2 decimal whole => rw [trimmed, dif_neg whole]

end Reading

end Decimal

namespace Number

open Decimal

section Searching

variable {number : Number} {decimal : Decimal} {significand exponent : Nat}

theorem decimalOf?_reads {position : Int} {digits : Nat}
    (found : number.decimalOf? position digits = some decimal) : decimal.toNumber false = number.abs := by
  unfold decimalOf? at found
  dsimp only at found
  split at found
  next both =>
    obtain ⟨below, above⟩ := Bool.and_eq_true_iff.1 both
    -- Both neighbours read as the number, and what is taken is one of them.
    have rounded (numerator denominator : Nat) :
        roundHalfEven numerator denominator = numerator / denominator ∨
          roundHalfEven numerator denominator = numerator / denominator + 1 := by
      unfold roundHalfEven
      dsimp only
      split
      · exact .inl rfl
      · split <;> omega
    cases found
    rcases rounded _ _ with down | up
    · rw [down]
      exact beq_iff_eq.1 below
    · rw [up]
      exact beq_iff_eq.1 above
  next =>
    split at found
    next below =>
      cases found
      exact beq_iff_eq.1 below
    next =>
      split at found
      next above =>
        cases found
        exact beq_iff_eq.1 above
      next => cases found

theorem one_pos : 0 < one := by
  rw [one, Nat.one_shiftLeft]
  exact Nat.two_pow_pos oneExponent

theorem one_le : one ≤ tenTo 324 := by decide +kernel

theorem tenTo_324 : Nat.pow 10 324 = tenTo 324 := by decide +kernel

theorem pointPosition_eq {units coefficient places : Nat} (some : units ≠ 0)
    (steps : units * tenTo places = coefficient * one) (positive : coefficient ≠ 0) :
    pointPosition units = digitCount coefficient - places := by
  rw [pointPosition, tenTo_324]
  -- The units are scaled up by a fixed power of ten, which may be more than the places or less.
  by_cases few : places ≤ 324
  next =>
    have whole : units * tenTo 324 = coefficient * tenTo (324 - places) * one := by
      rw [← Nat.add_sub_cancel' few, tenTo_add, ← Nat.mul_assoc, steps, Nat.add_sub_cancel_left,
        Nat.mul_right_comm]
    rw [whole, Nat.mul_div_cancel _ one_pos, digitCount_mul positive]
    omega
  next =>
    have many : places = 324 + (places - 324) := by omega
    have beyond : 0 < tenTo (places - 324) := tenTo_pos _
    rw [many, tenTo_add, ← Nat.mul_assoc] at steps
    have whole : units * tenTo 324 / one = coefficient / tenTo (places - 324) := by
      rw [← Nat.mul_div_mul_right _ _ beyond, steps, Nat.mul_comm one, Nat.mul_div_mul_right _ _ one_pos]
    have large : tenTo (places - 324) ≤ coefficient := by
      refine Nat.le_of_mul_le_mul_right ?_ one_pos
      calc tenTo (places - 324) * one
          ≤ tenTo (places - 324) * tenTo 324 := Nat.mul_le_mul_left _ one_le
        _ ≤ units * (tenTo (places - 324) * tenTo 324) := Nat.le_mul_of_pos_left _ (Nat.pos_of_ne_zero some)
        _ = coefficient * one := by rw [← steps, Nat.mul_comm (tenTo (places - 324)), Nat.mul_assoc]
    have fewer := digitCount_div large
    rw [whole]
    omega

theorem one_shiftLeft_le {first second : Nat} (fewer : first ≤ second) : 1 <<< first ≤ 1 <<< second := by
  rw [Nat.one_shiftLeft, Nat.one_shiftLeft]
  exact Nat.pow_le_pow_right (by decide) fewer

theorem exists_steps (canonical : Canonical significand exponent) (positive : significand ≠ 0) :
    ∃ coefficient places, significand <<< exponent * tenTo places = coefficient * one ∧
      coefficient ≠ 0 ∧ digitCount coefficient ≤ 800 ∧ digitCount coefficient < 310 + places := by
  obtain ⟨short, bounded, -⟩ := canonical
  have short : significand < tenTo 16 := Nat.lt_of_lt_of_le short (by decide +kernel)
  have below {factor count : Nat} (small : factor ≤ tenTo count) :
      significand * factor < tenTo (16 + count) := by
    rw [tenTo_add]
    exact Nat.mul_lt_mul_of_lt_of_le short small (tenTo_pos count)
  -- From one unit on a number is whole; below, every halving of a unit is a five and one more place.
  by_cases whole : oneExponent ≤ exponent
  next =>
    have power : 2 ^ (exponent - oneExponent) ≤ tenTo 293 := by
      have large : 1 <<< 971 ≤ tenTo 293 := by decide +kernel
      rw [← Nat.one_shiftLeft]
      exact Nat.le_trans (one_shiftLeft_le (by unfold oneExponent; omega)) large
    have digits := (digitCount_le_iff (by decide)).2 (below power)
    rw [← Nat.shiftLeft_eq] at digits
    have some : significand <<< (exponent - oneExponent) ≠ 0 := by
      rw [Nat.shiftLeft_eq]
      exact Nat.mul_ne_zero positive (Nat.ne_of_gt (Nat.two_pow_pos _))
    refine ⟨significand <<< (exponent - oneExponent), 0, ?_, some, by omega, by omega⟩
    rw [tenTo_zero, Nat.mul_one, one, Nat.one_shiftLeft, ← Nat.shiftLeft_eq, ← Nat.shiftLeft_add,
      Nat.sub_add_cancel whole]
  next =>
    have places : exponent + (oneExponent - exponent) = oneExponent := by omega
    have few : oneExponent - exponent ≤ 1074 := Nat.sub_le _ _
    generalize oneExponent - exponent = count at places few
    have split : tenTo count = Nat.pow 5 count * 1 <<< count := by
      rw [Nat.one_shiftLeft]
      exact Nat.mul_pow 5 2 count
    have least : 0 < Nat.pow 5 count := Nat.pow_pos (by decide)
    have power : Nat.pow 5 count ≤ tenTo 751 := by
      -- The largest power is named, lest it be computed wherever it is compared.
      obtain ⟨most, enough, large⟩ : ∃ most, 1074 ≤ most ∧ Nat.pow 5 most ≤ tenTo 751 :=
        ⟨1074, Nat.le_refl _, by decide +kernel⟩
      exact Nat.le_trans (Nat.pow_le_pow_right (by decide) (Nat.le_trans few enough)) large
    have digits := (digitCount_le_iff (by decide)).2 (below power)
    have fewer : digitCount (significand * Nat.pow 5 count) ≤ 16 + count :=
      (digitCount_le_iff (by omega)).2 (below (Nat.pow_le_pow_left (by decide) count))
    refine ⟨significand * Nat.pow 5 count, count, ?_, ?_, by omega, by omega⟩
    · rw [split, Nat.shiftLeft_eq, one, Nat.one_shiftLeft, Nat.one_shiftLeft, ← places, Nat.pow_add]
      ac_rfl
    · exact Nat.mul_ne_zero positive (Nat.ne_of_gt least)

theorem decimalOf?_exact {coefficient places : Nat} (canonical : Canonical significand exponent)
    (steps : significand <<< exponent * tenTo places = coefficient * one)
    (fits : (⟨coefficient, -places⟩ : Decimal).Fits) (negative : Bool) :
    ((Number.finite negative significand exponent canonical).decimalOf?
      (digitCount coefficient - places) (digitCount coefficient)).isSome := by
  have magnitude : (Number.finite negative significand exponent canonical).magnitude =
      significand <<< exponent := natAbs_withSign negative _
  have exponents : (digitCount coefficient : Int) - places - digitCount coefficient = -places := by omega
  have below : (Decimal.steps (significand <<< exponent) (-places)).1 /
      (Decimal.steps (significand <<< exponent) (-places)).2 = coefficient := by
    unfold Decimal.steps
    by_cases none : places = 0
    next =>
      rw [none, tenTo_zero, Nat.mul_one] at steps
      rw [if_pos (by omega), none, steps]
      exact Nat.mul_div_cancel _ one_pos
    next =>
      have part : (-(-(places : Int))).toNat = places := by omega
      rw [if_neg (by omega), part]
      change significand <<< exponent * tenTo places / one = coefficient
      rw [steps, Nat.mul_div_cancel _ one_pos]
  have reads : (⟨coefficient, -places⟩ : Decimal).toNumber false =
      .finite false significand exponent canonical := by
    have whole : (-(places : Int)).toNat = 0 := by omega
    have part : (-(-(places : Int))).toNat = places := by omega
    rw [toNumber_eq_nearest fits]
    dsimp only
    rw [whole, part, tenTo_zero, Nat.mul_one, ← steps]
    exact nearest_exact false canonical (tenTo_pos places)
  unfold decimalOf?
  dsimp only
  rw [magnitude, exponents, below, reads]
  simp [Number.abs]
  split <;> rfl

theorem searchDigits?_reads (canonical : Canonical significand exponent) (positive : significand ≠ 0)
    (negative : Bool) :
    ∃ decimal, (Number.finite negative significand exponent canonical).searchDigits? = some decimal ∧
      decimal.toNumber false = .finite false significand exponent canonical := by
  obtain ⟨coefficient, places, steps, some, few, fewer⟩ := exists_steps canonical positive
  have magnitude : (Number.finite negative significand exponent canonical).magnitude =
      significand <<< exponent := natAbs_withSign negative _
  have units : significand <<< exponent ≠ 0 := by
    rw [Nat.shiftLeft_eq]
    exact Nat.mul_ne_zero positive (Nat.ne_of_gt (Nat.two_pow_pos _))
  have point := pointPosition_eq units steps some
  have digits := digitCount_pos coefficient
  have fits : (⟨coefficient, -places⟩ : Decimal).Fits := by
    have above : -324 < pointPosition (significand <<< exponent) := by
      have digits := digitCount_pos (significand <<< exponent * Nat.pow 10 324 / one)
      unfold pointPosition
      omega
    have position : (⟨coefficient, -places⟩ : Decimal).position = digitCount coefficient - places := by
      unfold Decimal.position
      dsimp only
      omega
    exact ⟨some, by omega, by omega⟩
  -- The search comes to the digits of the exact decimal, if it has not ended before.
  have exact := decimalOf?_exact canonical steps fits negative
  have found : (Number.finite negative significand exponent canonical).searchDigits?.isSome := by
    unfold searchDigits?
    dsimp only
    rw [magnitude, point, List.findSome?_isSome_iff]
    refine ⟨digitCount coefficient - 1, List.mem_range.2 (by omega), ?_⟩
    rwa [Nat.sub_add_cancel digits]
  obtain ⟨decimal, found⟩ := Option.isSome_iff_exists.1 found
  obtain ⟨count, _, read⟩ := List.exists_of_findSome?_eq_some found
  exact ⟨decimal, found, decimalOf?_reads read⟩

theorem shortest_reads (canonical : Canonical significand exponent) (positive : significand ≠ 0)
    (negative : Bool) :
    (Number.finite negative significand exponent canonical).shortest.toNumber false =
      .finite false significand exponent canonical := by
  obtain ⟨searched, found, reads⟩ := searchDigits?_reads canonical positive negative
  unfold shortest
  rw [trimmed_toNumber, found]
  cases own : (Number.finite negative significand exponent canonical).ownDigits? with
  | none => exact reads
  | some decimal =>
    unfold ownDigits? at own
    split at own
    next =>
      split at own
      next reads =>
        cases own
        exact reads.2
      next => cases own
    next => cases own

end Searching

end Number

end Collections
