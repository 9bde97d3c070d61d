import Collections.Value

set_option autoImplicit false

namespace Collections

theorem Canonical.exponent_le {left leftExponent right rightExponent : Nat}
    (leftCanonical : Canonical left leftExponent) (rightCanonical : Canonical right rightExponent)
    (magnitude : left <<< leftExponent = right <<< rightExponent) : rightExponent ≤ leftExponent := by
  refine Nat.le_of_not_lt fun low => ?_
  -- A larger exponent needs all bits of its significand, and one of them would be too many.
  have full : 1 <<< 52 ≤ right := rightCanonical.2.2.resolve_left (by omega)
  have powers : 2 ^ rightExponent = 2 ^ (rightExponent - leftExponent) * 2 ^ leftExponent := by
    rw [← Nat.pow_add, Nat.sub_add_cancel (by omega)]
  have shifted : left = right * 2 ^ (rightExponent - leftExponent) := by
    rw [Nat.shiftLeft_eq, Nat.shiftLeft_eq, powers, ← Nat.mul_assoc] at magnitude
    exact Nat.eq_of_mul_eq_mul_right (Nat.two_pow_pos _) magnitude
  have doubled : right * 2 ^ 1 ≤ right * 2 ^ (rightExponent - leftExponent) :=
    Nat.mul_le_mul_left _ (Nat.pow_le_pow_right (by decide) (by omega))
  have short : left < 1 <<< 53 := leftCanonical.1
  omega

namespace Number

theorem ofParts_same (negative : Bool) (significand exponent : Nat) :
    (ofParts negative significand exponent).same (ofParts negative significand exponent) = true := by
  unfold ofParts
  split <;> simp [same]

theorem ofNat_same (value : Nat) : (ofNat value).same (ofNat value) = true := by
  unfold ofNat ofScaled
  dsimp only
  repeat' split
  · rfl
  all_goals exact ofParts_same _ _ _

theorem magnitude_eq (significand exponent shift whole : Nat) :
    (if shift ≤ exponent then some (significand <<< (exponent - shift))
      else if (significand >>> (shift - exponent)) <<< (shift - exponent) = significand then
        some (significand >>> (shift - exponent))
      else none) = some whole ↔ significand <<< exponent = whole * 1 <<< shift := by
  rw [Nat.shiftLeft_eq significand exponent, Nat.one_shiftLeft]
  split
  next high =>
    have powers : 2 ^ exponent = 2 ^ (exponent - shift) * 2 ^ shift := by
      rw [← Nat.pow_add, Nat.sub_add_cancel high]
    rw [powers, ← Nat.mul_assoc, Nat.mul_left_inj (by simp), Nat.shiftLeft_eq, Option.some.injEq]
  next low =>
    have powers : 2 ^ shift = 2 ^ (shift - exponent) * 2 ^ exponent := by
      rw [← Nat.pow_add, Nat.sub_add_cancel (by omega)]
    have positive : 0 < 2 ^ (shift - exponent) := Nat.pow_pos (by decide)
    rw [powers, ← Nat.mul_assoc, Nat.mul_left_inj (by simp), Nat.shiftLeft_eq, Nat.shiftRight_eq_div_pow]
    split
    next exactly =>
      rw [Option.some.injEq]
      constructor
      · intro same
        rw [← same, exactly]
      · intro same
        rw [same, Nat.mul_div_cancel _ positive]
    next inexactly =>
      refine ⟨nofun, fun same => (inexactly ?_).elim⟩
      rw [same, Nat.mul_div_cancel _ positive]

theorem one_ne_zero : (one : Int) ≠ 0 := by
  rw [one, Nat.one_shiftLeft]
  exact Int.natCast_ne_zero.2 (Nat.ne_of_gt (Nat.two_pow_pos oneExponent))

def withSign (negative : Bool) (magnitude : Nat) : Int :=
  if negative then -magnitude else magnitude

theorem withSign_mul (negative : Bool) (magnitude factor : Nat) :
    withSign negative (magnitude * factor) = withSign negative magnitude * factor := by
  cases negative with
  | false => exact Int.natCast_mul magnitude factor
  | true =>
    change -((magnitude * factor : Nat) : Int) = -(magnitude : Int) * factor
    rw [Int.natCast_mul, Int.neg_mul]

theorem withSign_zero (negative : Bool) : withSign negative 0 = 0 := by
  cases negative <;> rfl

theorem natAbs_withSign (negative : Bool) (magnitude : Nat) :
    (withSign negative magnitude).natAbs = magnitude := by
  cases negative <;> simp [withSign]

theorem toInt?_eq_some (number : Number) (whole : Int) :
    number.toInt? = some whole ↔ number.units? = some (whole * one) := by
  cases number with
  | nan => exact ⟨nofun, nofun⟩
  | infinite negative => exact ⟨nofun, nofun⟩
  | finite negative significand exponent canonical =>
    have exactly := magnitude_eq significand exponent oneExponent
    have read : (Number.finite negative significand exponent canonical).toInt? =
        (if oneExponent ≤ exponent then some (significand <<< (exponent - oneExponent))
          else if (significand >>> (oneExponent - exponent)) <<< (oneExponent - exponent) =
              significand then some (significand >>> (oneExponent - exponent))
          else none).map (withSign negative) := by
      unfold toInt?
      dsimp only
      split
      next => rw [Option.map_some, withSign]
      next =>
        split
        next => rw [Option.map_some, withSign]
        next => rw [Option.map_none]
    change _ ↔ some (withSign negative (significand <<< exponent)) = _
    rw [read, Option.map_eq_some_iff, Option.some.injEq]
    constructor
    · rintro ⟨magnitude, told, rfl⟩
      rw [(exactly magnitude).1 told]
      exact withSign_mul negative magnitude one
    · intro units
      have magnitude := congrArg Int.natAbs units
      rw [natAbs_withSign, Int.natAbs_mul, Int.natAbs_natCast] at magnitude
      refine ⟨whole.natAbs, (exactly whole.natAbs).2 magnitude, ?_⟩
      rw [magnitude, withSign_mul] at units
      exact Int.eq_of_mul_eq_mul_right one_ne_zero units

theorem same_of_units?_eq {left right : Number} {units : Int} (leftUnits : left.units? = some units)
    (rightUnits : right.units? = some units) : left.same right = true := by
  obtain _ | _ | ⟨leftNegative, left, leftExponent, leftCanonical⟩ := left
  · cases leftUnits
  · cases leftUnits
  obtain _ | _ | ⟨rightNegative, right, rightExponent, rightCanonical⟩ := right
  · cases rightUnits
  · cases rightUnits
  have leftUnits : withSign leftNegative (left <<< leftExponent) = units := Option.some.inj leftUnits
  have rightUnits : withSign rightNegative (right <<< rightExponent) = units :=
    Option.some.inj rightUnits
  have magnitude : left <<< leftExponent = right <<< rightExponent := by
    have both := congrArg Int.natAbs (leftUnits.trans rightUnits.symm)
    rwa [natAbs_withSign, natAbs_withSign] at both
  obtain rfl : leftExponent = rightExponent := Nat.le_antisymm
    (rightCanonical.exponent_le leftCanonical magnitude.symm)
    (leftCanonical.exponent_le rightCanonical magnitude)
  rw [Nat.shiftLeft_eq] at leftUnits
  rw [Nat.shiftLeft_eq] at rightUnits
  rw [Nat.shiftLeft_eq, Nat.shiftLeft_eq] at magnitude
  obtain rfl : left = right := Nat.eq_of_mul_eq_mul_right (Nat.two_pow_pos leftExponent) magnitude
  by_cases zero : left = 0
  · simp [same, isZero, zero]
  · have positive : 0 < left * 2 ^ leftExponent :=
      Nat.mul_pos (Nat.pos_of_ne_zero zero) (Nat.two_pow_pos leftExponent)
    generalize left * 2 ^ leftExponent = whole at leftUnits rightUnits positive
    have signs : leftNegative = rightNegative := by
      cases leftNegative <;> cases rightNegative <;> simp only [withSign] at leftUnits rightUnits ⊢ <;>
        simp at leftUnits rightUnits <;> omega
    simp [same, signs]

theorem same_of_place?_eq {left right : Number} {place : Int × Int} (leftPlace : left.place? = some place)
    (rightPlace : right.place? = some place) : left.same right = true := by
  cases left with
  | nan => cases leftPlace
  | infinite negative =>
    cases right with
    | nan => cases rightPlace
    | infinite other => cases negative <;> cases other <;> cases leftPlace <;> cases rightPlace <;> rfl
    | finite => cases negative <;> cases leftPlace <;> cases rightPlace
  | finite =>
    rw [place?, Option.map_eq_some_iff] at leftPlace
    obtain ⟨units, leftUnits, rfl⟩ := leftPlace
    cases right with
    | nan => cases rightPlace
    | infinite negative => cases negative <;> cases rightPlace
    | finite =>
      rw [place?, Option.map_eq_some_iff] at rightPlace
      obtain ⟨_, rightUnits, same⟩ := rightPlace
      cases same
      exact same_of_units?_eq leftUnits rightUnits

theorem toNat?_eq_some (number : Number) (natural : Nat) :
    number.toNat? = some natural ↔ number.toInt? = some (natural : Int) := by
  unfold toNat?
  split
  next value told =>
    rw [told]
    simp only [Option.some.injEq, Int.ofNat_eq_natCast, Int.natCast_inj]
  next other => exact ⟨nofun, fun told => (other natural told).elim⟩

theorem toNat?_ofNat {value : Nat} (small : value < 1 <<< 53) : (ofNat value).toNat? = some value := by
  rw [toNat?_eq_some, toInt?_eq_some]
  unfold ofNat ofScaled
  by_cases zero : value = 0
  next =>
    rw [if_pos zero, zero]
    decide
  next =>
    have least : 2 ^ Nat.log2 value ≤ value := Nat.log2_self_le zero
    have above : value < 2 ^ (Nat.log2 value + 1) := Nat.lt_log2_self
    have short : Nat.log2 value ≤ 52 := by
      refine Nat.le_of_not_lt fun long => ?_
      have powers : 2 ^ 53 ≤ 2 ^ Nat.log2 value := Nat.pow_le_pow_right (by decide) (by omega)
      omega
    rw [if_neg zero, if_pos small]
    dsimp only
    generalize Nat.log2 value = bits at least above short ⊢
    have room : min oneExponent (52 - bits) = 52 - bits := by unfold oneExponent; omega
    have canonical : Canonical (value <<< (52 - bits)) (oneExponent - (52 - bits)) := by
      have low : 2 ^ bits * 2 ^ (52 - bits) ≤ value * 2 ^ (52 - bits) := Nat.mul_le_mul_right _ least
      have high : value * 2 ^ (52 - bits) < 2 ^ (bits + 1) * 2 ^ (52 - bits) :=
        Nat.mul_lt_mul_of_pos_right above (Nat.two_pow_pos _)
      rw [← Nat.pow_add] at low high
      rw [Nat.add_sub_cancel' short] at low
      rw [Nat.add_right_comm, Nat.add_sub_cancel' short] at high
      rw [Nat.shiftLeft_eq]
      exact ⟨high, by unfold oneExponent; omega, .inr low⟩
    have scaled : value <<< (52 - bits) <<< (oneExponent - (52 - bits)) = value * one := by
      rw [← Nat.shiftLeft_add, one, Nat.one_shiftLeft, Nat.shiftLeft_eq]
      congr 2
      unfold oneExponent
      omega
    rw [room, ofParts, dif_pos canonical]
    simp [units?, scaled]

theorem toInt?_of_isNegativeZero {number : Number} (negative : number.isNegativeZero = true) :
    number.toInt? = some 0 := by
  rw [toInt?_eq_some]
  cases number with
  | nan => cases negative
  | infinite sign => cases negative
  | finite sign significand exponent canonical =>
    obtain rfl : significand = 0 := beq_iff_eq.1 (Bool.and_eq_true_iff.1 negative).2
    change some (withSign sign (0 <<< exponent)) = _
    rw [Nat.zero_shiftLeft, withSign_zero, Int.zero_mul]

theorem isZero_of_same {number : Number} (same : number.same (.ofNat 0) = true) :
    number.isZero = true := by
  cases number with
  | nan => cases same
  | infinite negative => cases same
  | finite negative significand exponent canonical =>
    have either : (significand == 0 && true ||
        Number.finite negative significand exponent canonical == zero false) = true := same
    rcases Bool.or_eq_true_iff.1 either with both | equal
    · exact (Bool.and_eq_true_iff.1 both).1
    · rw [beq_iff_eq.1 equal]
      rfl

end Number

def Value.Names (value : Value) (whole : Int) : Prop :=
  ∃ number, value = .number number ∧ number.units? = some (whole * Number.one)

theorem Value.names_number (number : Number) (whole : Int) :
    (Value.number number).Names whole ↔ number.toInt? = some whole := by
  rw [Number.toInt?_eq_some]
  constructor
  · rintro ⟨named, same, units⟩
    cases same
    exact units
  · exact fun units => ⟨number, rfl, units⟩

theorem Value.names_zero (whole : Int) :
    (Value.number (.zero false)).Names whole ↔ whole = 0 := by
  have zero : (Number.zero false).toInt? = some 0 := by decide
  rw [Value.names_number, zero, Option.some.injEq, eq_comm]

end Collections
