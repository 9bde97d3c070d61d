import Collections.Proofs.Number

set_option autoImplicit false

namespace Collections.Number

variable {negative : Bool} {numerator denominator factor significand exponent mantissa : Nat}

theorem roundHalfEven_mul (positive : 0 < factor) (numerator denominator : Nat) :
    roundHalfEven (numerator * factor) (denominator * factor) = roundHalfEven numerator denominator := by
  unfold roundHalfEven
  have doubled : 2 * (numerator % denominator * factor) = 2 * (numerator % denominator) * factor := by
    rw [Nat.mul_assoc]
  simp only [Nat.mul_div_mul_right _ _ positive, Nat.mul_mod_mul_right, doubled,
    Nat.mul_lt_mul_right positive, Nat.mul_left_inj (Nat.ne_of_gt positive)]

theorem roundHalfEven_exact (positive : 0 < denominator) (whole : Nat) :
    roundHalfEven (whole * denominator) denominator = whole := by
  simp [roundHalfEven, Nat.mul_div_cancel _ positive, positive]

theorem nearest_mul (negative : Bool) (positive : 0 < factor) (numerator denominator : Nat) :
    nearest negative (numerator * factor) (denominator * factor) =
      nearest negative numerator denominator := by
  have shifted (count : Nat) : (denominator * factor) <<< count = denominator <<< count * factor := by
    rw [Nat.shiftLeft_eq, Nat.shiftLeft_eq, Nat.mul_right_comm]
  simp only [nearest, Nat.mul_div_mul_right _ _ positive, shifted, roundHalfEven_mul positive]

theorem nearest_congr (negative : Bool) {left right leftUnder rightUnder : Nat} (leftPositive : 0 < leftUnder)
    (rightPositive : 0 < rightUnder) (same : left * rightUnder = right * leftUnder) :
    nearest negative left leftUnder = nearest negative right rightUnder := by
  calc nearest negative left leftUnder
      = nearest negative (left * rightUnder) (leftUnder * rightUnder) :=
        (nearest_mul negative rightPositive _ _).symm
    _ = nearest negative (right * leftUnder) (rightUnder * leftUnder) := by
        rw [same, Nat.mul_comm leftUnder]
    _ = nearest negative right rightUnder := nearest_mul negative leftPositive _ _

theorem log2_shiftLeft {value : Nat} (positive : value ≠ 0) (count : Nat) :
    Nat.log2 (value <<< count) = Nat.log2 value + count := by
  have shifted : value * 2 ^ count ≠ 0 := Nat.mul_ne_zero positive (Nat.ne_of_gt (Nat.two_pow_pos count))
  rw [Nat.shiftLeft_eq, Nat.log2_eq_iff shifted, Nat.pow_add, Nat.add_right_comm, Nat.pow_add]
  exact ⟨Nat.mul_le_mul_right _ (Nat.log2_self_le positive),
    Nat.mul_lt_mul_of_pos_right Nat.lt_log2_self (Nat.two_pow_pos count)⟩

theorem excess_of_canonical (canonical : Canonical significand exponent) :
    Nat.log2 (significand <<< exponent) - 52 = exponent := by
  obtain ⟨short, -, full⟩ := canonical
  by_cases zero : significand = 0
  next =>
    rcases full with rfl | full
    · simp [zero]
    · omega
  next =>
    have short : Nat.log2 significand < 53 := (Nat.log2_lt zero).2 short
    rw [log2_shiftLeft zero]
    rcases full with rfl | full
    · omega
    · have long : 52 ≤ Nat.log2 significand := (Nat.le_log2 zero).2 full
      omega

theorem nearest_exact (negative : Bool) (canonical : Canonical significand exponent)
    (positive : 0 < denominator) :
    nearest negative (significand <<< exponent * denominator) denominator =
      .finite negative significand exponent canonical := by
  have shifted : significand <<< exponent * denominator = significand * denominator <<< exponent := by
    rw [Nat.shiftLeft_eq, Nat.shiftLeft_eq, Nat.mul_assoc, Nat.mul_comm denominator]
  have more : 0 < denominator <<< exponent := by
    rw [Nat.shiftLeft_eq]
    exact Nat.mul_pos positive (Nat.two_pow_pos exponent)
  -- A significand that is rounded up to the next power would be halved; this one is not rounded.
  have short : significand ≠ 1 <<< 53 := Nat.ne_of_lt canonical.1
  unfold nearest
  rw [Nat.mul_div_cancel _ positive, excess_of_canonical canonical, shifted]
  simp only [roundHalfEven_exact more, if_neg short, ofParts, dif_pos canonical]

theorem ofParts_negate (significand exponent : Nat) :
    ofParts true significand exponent = (ofParts false significand exponent).negate := by
  unfold ofParts
  split <;> rfl

theorem nearest_negate (numerator denominator : Nat) :
    nearest true numerator denominator = (nearest false numerator denominator).negate := by
  unfold nearest
  dsimp only
  split <;> exact ofParts_negate _ _

theorem ofScaled_negate (mantissa exponent : Nat) :
    ofScaled true mantissa exponent = (ofScaled false mantissa exponent).negate := by
  unfold ofScaled
  dsimp only
  split
  · rfl
  · split
    · exact ofParts_negate _ _
    · split <;> exact ofParts_negate _ _

theorem ofScaled_eq_nearest (negative : Bool) (positive : mantissa ≠ 0) :
    ofScaled negative mantissa oneExponent = nearest negative (mantissa * one) 1 := by
  have units : mantissa * one = mantissa <<< oneExponent := by
    rw [one, Nat.one_shiftLeft, Nat.shiftLeft_eq]
  unfold ofScaled nearest
  rw [if_neg positive, Nat.div_one, units, log2_shiftLeft positive]
  -- A short mantissa is shifted until it is full, and rounding drops nothing; a long one is rounded.
  by_cases short : mantissa < 1 <<< 53
  next =>
    have small : Nat.log2 mantissa < 53 := (Nat.log2_lt positive).2 short
    have above : mantissa < 2 ^ (Nat.log2 mantissa + 1) := Nat.lt_log2_self
    rw [if_pos short]
    generalize Nat.log2 mantissa = bits at small above ⊢
    have room : min oneExponent (52 - bits) = 52 - bits := by unfold oneExponent; omega
    have exponents : bits + oneExponent - 52 = oneExponent - (52 - bits) := by unfold oneExponent; omega
    have whole : mantissa <<< oneExponent =
        mantissa <<< (52 - bits) * 1 <<< (oneExponent - (52 - bits)) := by
      rw [Nat.one_shiftLeft, ← Nat.shiftLeft_eq, ← Nat.shiftLeft_add]
      congr 1
      unfold oneExponent
      omega
    have fits : mantissa <<< (52 - bits) < 1 <<< 53 := by
      have scaled := Nat.mul_lt_mul_of_pos_right above (Nat.two_pow_pos (52 - bits))
      rw [← Nat.pow_add, show bits + 1 + (52 - bits) = 53 by omega] at scaled
      rwa [Nat.shiftLeft_eq, Nat.one_shiftLeft]
    have positive : 0 < 1 <<< (oneExponent - (52 - bits)) := by
      rw [Nat.one_shiftLeft]
      exact Nat.two_pow_pos _
    simp only [room, exponents, whole, roundHalfEven_exact positive, if_neg (Nat.ne_of_lt fits)]
  next =>
    have long : 53 ≤ Nat.log2 mantissa := (Nat.le_log2 positive).2 (Nat.le_of_not_lt short)
    rw [if_neg short]
    generalize Nat.log2 mantissa = bits at long ⊢
    have exponents : bits + oneExponent - 52 = oneExponent + (bits - 52) := by unfold oneExponent; omega
    have rounded : roundHalfEven (mantissa <<< oneExponent) (1 <<< (oneExponent + (bits - 52))) =
        roundHalfEven mantissa (1 <<< (bits - 52)) := by
      rw [Nat.add_comm, Nat.shiftLeft_add, Nat.shiftLeft_eq mantissa, Nat.shiftLeft_eq (1 <<< _)]
      exact roundHalfEven_mul (Nat.two_pow_pos _) _ _
    simp only [exponents, rounded]

end Collections.Number
