import FilterLang.Proofs.Number.FiniteNumber

/-!
# The double nearest to an integer

A double has 53 significant bits. The integers with no more of them are `Short`, and the others are
rounded to a short one (`roundInt`). No short integer lies strictly between an integer and what it
is rounded to, so rounding cannot carry an integer past a double, though it can carry one onto it.
All of this is about integers: in units of `2 ^ -1074`, a finite double is a short integer, and the
double nearest to an integer is that integer rounded.
-/

namespace FilterLang

section RoundQuotient

variable {numerator denominator quotient : Nat}

theorem roundQuotient_le (small : numerator ≤ quotient * denominator) :
    roundQuotient numerator denominator ≤ quotient := by
  have division := Nat.div_add_mod numerator denominator
  have whole : numerator / denominator ≤ quotient :=
    Nat.div_le_of_le_mul (Nat.mul_comm quotient denominator ▸ small)
  unfold roundQuotient
  simp only
  split
  · next up =>
    have remains : numerator % denominator ≠ 0 := by
      intro noRest
      simp only [noRest, Nat.mul_zero, Bool.or_eq_true, Bool.and_eq_true, decide_eq_true_eq,
        beq_iff_eq] at up
      rcases up with less | ⟨zero, odd⟩
      · omega
      · rw [← zero, Nat.div_zero] at odd
        omega
    rcases Nat.lt_or_eq_of_le whole with less | same
    · exact less
    · rw [same, Nat.mul_comm] at division
      omega
  · exact whole

theorem le_roundQuotient (positive : 0 < denominator) (large : quotient * denominator ≤ numerator) :
    quotient ≤ roundQuotient numerator denominator := by
  have whole : quotient ≤ numerator / denominator := (Nat.le_div_iff_mul_le positive).mpr large
  unfold roundQuotient
  simp only
  split
  · exact Nat.le_succ_of_le whole
  · exact whole

theorem roundQuotient_mul {factor : Nat} (positive : 0 < factor) :
    roundQuotient (numerator * factor) (denominator * factor) =
      roundQuotient numerator denominator := by
  have twice : 2 * (numerator % denominator * factor) = 2 * (numerator % denominator) * factor := by
    rw [Nat.mul_assoc]
  have cancel : (2 * (numerator % denominator) * factor == denominator * factor) =
      (2 * (numerator % denominator) == denominator) := by
    rw [Bool.eq_iff_iff, beq_iff_eq, beq_iff_eq, Nat.mul_left_inj (Nat.ne_of_gt positive)]
  simp only [roundQuotient, Nat.mul_div_mul_right _ _ positive, Nat.mul_mod_mul_right, twice,
    cancel, Nat.mul_lt_mul_right positive]

end RoundQuotient

section Short

/-- At most 53 bits of a natural are significant. -/
def Short (n : Nat) : Prop :=
  ∃ significand places, significand < 2 ^ 53 ∧ n = significand * 2 ^ places

theorem Short.of_lt {n : Nat} (small : n < 2 ^ 53) : Short n := ⟨n, 0, small, by simp⟩

/-- A short natural ends in a given number of zeros, unless it is too small for that. -/
theorem Short.dvd_or_lt {n : Nat} (short : Short n) (places : Nat) :
    2 ^ places ∣ n ∨ n < 2 ^ 52 * 2 ^ places := by
  rcases short with ⟨significand, own, small, rfl⟩
  rcases Nat.lt_or_ge own places with fewer | more
  · right
    calc significand * 2 ^ own < 2 ^ 53 * 2 ^ own :=
          Nat.mul_lt_mul_of_pos_right small (Nat.two_pow_pos own)
      _ = 2 ^ 52 * 2 ^ (own + 1) := by rw [Nat.pow_succ 2 own]; omega
      _ ≤ 2 ^ 52 * 2 ^ places :=
          Nat.mul_le_mul_left _ (Nat.pow_le_pow_right (by decide) fewer)
  · left
    exact Nat.dvd_mul_left_of_dvd (Nat.pow_dvd_pow 2 more) significand

/-- How many bits a natural has beyond 53. -/
def excess (n : Nat) : Nat := n.log2 - 52

/-- A natural rounded to 53 significant bits, on a tie to an even significand. -/
def roundNat (n : Nat) : Nat := roundQuotient n (2 ^ excess n) * 2 ^ excess n

variable {n bound : Nat}

theorem lt_of_excess (n : Nat) : n < 2 ^ 53 * 2 ^ excess n := by
  have log : n < 2 ^ (n.log2 + 1) := Nat.lt_log2_self
  apply Nat.lt_of_lt_of_le log
  rw [← Nat.pow_add]
  apply Nat.pow_le_pow_right (by decide)
  unfold excess
  omega

theorem le_of_excess (long : excess n ≠ 0) : 2 ^ 52 * 2 ^ excess n ≤ n := by
  have nonzero : n ≠ 0 := by
    rintro rfl
    exact long rfl
  have log : 2 ^ n.log2 ≤ n := Nat.log2_self_le nonzero
  have places : 52 + excess n = n.log2 := by
    unfold excess at long ⊢
    omega
  rwa [← Nat.pow_add, places]

theorem roundNat_of_excess (fits : excess n = 0) : roundNat n = n := by
  have exact : roundQuotient n 1 = n :=
    Nat.le_antisymm (roundQuotient_le (by simp)) (le_roundQuotient (by decide) (by simp))
  rw [roundNat, fits, Nat.pow_zero, exact, Nat.mul_one]

/-- Rounding does not pass a short natural from below. -/
theorem roundNat_le (short : Short bound) (less : n ≤ bound) : roundNat n ≤ bound := by
  by_cases fits : excess n = 0
  · rw [roundNat_of_excess fits]
    exact less
  · rcases short.dvd_or_lt (excess n) with ⟨quotient, rfl⟩ | below
    · rw [roundNat, Nat.mul_comm _ quotient]
      exact Nat.mul_le_mul_right _ (roundQuotient_le (Nat.mul_comm quotient _ ▸ less))
    · have above := le_of_excess fits
      omega

/-- Rounding does not pass a short natural from above. -/
theorem le_roundNat (short : Short bound) (less : bound ≤ n) : bound ≤ roundNat n := by
  by_cases fits : excess n = 0
  · rw [roundNat_of_excess fits]
    exact less
  · have positive : 0 < 2 ^ excess n := Nat.two_pow_pos _
    rcases short.dvd_or_lt (excess n) with ⟨quotient, rfl⟩ | below
    · rw [roundNat, Nat.mul_comm _ quotient]
      exact Nat.mul_le_mul_right _ (le_roundQuotient positive (Nat.mul_comm quotient _ ▸ less))
    · have atLeast := le_roundQuotient positive (le_of_excess fits)
      exact Nat.le_trans below.le (Nat.mul_le_mul_right _ atLeast)

theorem roundNat_of_short (short : Short n) : roundNat n = n :=
  Nat.le_antisymm (roundNat_le short le_rfl) (le_roundNat short le_rfl)

theorem log2_mul_pow (nonzero : n ≠ 0) (places : Nat) :
    (n * 2 ^ places).log2 = n.log2 + places := by
  induction places with
  | zero => simp
  | succ places ih =>
      have more : n * 2 ^ places ≠ 0 := Nat.mul_ne_zero nonzero (Nat.two_pow_pos _).ne'
      have doubled : n * 2 ^ (places + 1) = 2 * (n * 2 ^ places) := by ring
      rw [doubled, Nat.log2_two_mul more, ih, Nat.add_assoc]

theorem roundNat_mul_pow (n places : Nat) :
    roundNat (n * 2 ^ places) = roundNat n * 2 ^ places := by
  by_cases fits : excess n = 0
  · have short : Short n := .of_lt (by simpa [fits] using lt_of_excess n)
    rcases short with ⟨significand, own, small, rfl⟩
    have scaled : Short (significand * 2 ^ own * 2 ^ places) :=
      ⟨significand, own + places, small, by rw [Nat.pow_add, Nat.mul_assoc]⟩
    rw [roundNat_of_excess fits, roundNat_of_short scaled]
  · have nonzero : n ≠ 0 := by
      rintro rfl
      exact fits rfl
    have log := log2_mul_pow nonzero places
    have more : excess (n * 2 ^ places) = excess n + places := by
      unfold excess at fits ⊢
      omega
    rw [roundNat, more, Nat.pow_add, roundQuotient_mul (Nat.two_pow_pos places), roundNat,
      Nat.mul_assoc]

end Short

section Integers

variable {n other bound : Int}

/-- An integer rounded to 53 significant bits. -/
def roundInt (n : Int) : Int := if n < 0 then -(roundNat n.natAbs : Int) else roundNat n.natAbs

theorem roundInt_le (short : Short bound.natAbs) (less : n ≤ bound) : roundInt n ≤ bound := by
  unfold roundInt
  split
  · by_cases negative : bound < 0
    · have passes := @le_roundNat n.natAbs _ short (by omega)
      omega
    · omega
  · have passes := @roundNat_le n.natAbs _ short (by omega)
    omega

theorem le_roundInt (short : Short bound.natAbs) (less : bound ≤ n) : bound ≤ roundInt n := by
  unfold roundInt
  split
  · have passes := @roundNat_le n.natAbs _ short (by omega)
    omega
  · by_cases negative : bound < 0
    · omega
    · have passes := @le_roundNat n.natAbs _ short (by omega)
      omega

theorem roundInt_lt_iff (short : Short bound.natAbs) :
    roundInt n < bound ↔ n < bound ∧ roundInt n ≠ bound := by
  constructor
  · intro less
    refine ⟨?_, less.ne⟩
    by_contra above
    have passes := @le_roundInt n _ short (by omega)
    omega
  · rintro ⟨less, different⟩
    have passes := roundInt_le short less.le
    omega

theorem lt_roundInt_iff (short : Short bound.natAbs) :
    bound < roundInt n ↔ bound < n ∧ roundInt n ≠ bound := by
  constructor
  · intro greater
    refine ⟨?_, greater.ne'⟩
    by_contra below
    have passes := @roundInt_le n _ short (by omega)
    omega
  · rintro ⟨greater, different⟩
    have passes := le_roundInt short greater.le
    omega

theorem roundInt_neg : roundInt n < 0 ↔ n < 0 := by
  constructor
  · intro negative
    exact ((roundInt_lt_iff (.of_lt (by decide))).mp negative).1
  · intro negative
    have passes := @roundInt_le n (-1) (.of_lt (by decide)) (by omega)
    omega

theorem roundInt_of_short (short : Short n.natAbs) : roundInt n = n :=
  Int.le_antisymm (roundInt_le short le_rfl) (le_roundInt short le_rfl)

theorem roundInt_of_lt (small : n.natAbs < 2 ^ 53) : roundInt n = n :=
  roundInt_of_short (.of_lt small)

/-- An integer of less than 53 bits is the only one that is rounded to it. -/
theorem roundInt_eq (small : n.natAbs < 2 ^ 53) : roundInt other = n ↔ other = n := by
  constructor
  · intro rounded
    by_cases also : other.natAbs < 2 ^ 53
    · rwa [roundInt_of_lt also] at rounded
    · have short : Short (2 ^ 53) := ⟨1, 53, by decide, by simp⟩
      by_cases negative : other < 0
      · have atMost := @roundInt_le other (-2 ^ 53) (by simpa using short) (by omega)
        omega
      · have atLeast := @le_roundInt other (2 ^ 53) (by simpa using short) (by omega)
        omega
  · rintro rfl
    exact roundInt_of_lt small

theorem mul_pow_neg {places : Nat} : n * 2 ^ places < 0 ↔ n < 0 := by
  have positive : (0 : Int) < 2 ^ places := Int.pow_pos (by decide)
  rcases Int.lt_or_le n 0 with negative | nonnegative
  · simp [negative, Int.mul_neg_of_neg_of_pos negative positive]
  · have scaled := Int.mul_nonneg nonnegative positive.le
    omega

theorem natAbs_mul_pow (n : Int) (places : Nat) :
    (n * 2 ^ places).natAbs = n.natAbs * 2 ^ places := by
  rw [Int.natAbs_mul, Int.natAbs_pow]
  rfl

theorem roundInt_mul_pow (n : Int) (places : Nat) :
    roundInt (n * 2 ^ places) = roundInt n * 2 ^ places := by
  simp only [roundInt, natAbs_mul_pow, roundNat_mul_pow, mul_pow_neg]
  split <;> push_cast <;> ring

end Integers

namespace Binary64

variable {negative : Bool} {shift quotient : Nat} {value : Int}

theorem magnitude_short (x : Binary64) : Short x.magnitude := by
  refine ⟨x.significand, x.lastPlace, ?_, rfl⟩
  have bound := x.significand_lt
  rwa [Nat.pow_eq] at bound

theorem natAbs_units (x : Binary64) : x.units.natAbs = x.magnitude := by
  unfold units
  split <;> simp

theorem isNaN_of_finite {x : Binary64} (finite : x.isFinite = true) : x.isNaN = false := by
  have exponent : x.exponentField ≠ 2047 := by simpa [isFinite] using finite
  simp [isNaN, exponent]

/-- What the bits of a number with a given sign say. -/
theorem fields_ofSigned {rest : Nat} (fits : rest ≤ 2047 * 2 ^ 52) :
    (ofSigned negative rest).isNegative = negative ∧
      (ofSigned negative rest).exponentField = rest / 2 ^ 52 ∧
        (ofSigned negative rest).fraction = rest % 2 ^ 52 := by
  have bits : (ofSigned negative rest).bits.toNat = (if negative then 2 ^ 63 else 0) + rest := by
    simp only [ofSigned, Nat.pow_eq, BitVec.toNat_ofNat, Nat.min_eq_left fits]
    apply Nat.mod_eq_of_lt
    split <;> omega
  simp only [isNegative, BitVec.msb_eq_decide, exponentField, fraction, bits, Nat.pow_eq]
  cases negative
  · simp only [Bool.false_eq_true, if_false, decide_eq_false_iff_not]
    omega
  · simp only [if_true, decide_eq_true_eq]
    omega

/-- A significand with a carry out of its 53 bits has the bits of the next exponent. -/
theorem magnitude_ofSigned (carried : quotient ≤ 2 ^ 53) (subnormal : quotient < 2 ^ 52 → shift = 0)
    (fits : shift < 2045) :
    (ofSigned negative (shift * 2 ^ 52 + quotient)).magnitude = quotient * 2 ^ shift := by
  rcases @fields_ofSigned negative (shift * 2 ^ 52 + quotient) (by omega) with
    ⟨_, exponent, fraction⟩
  rcases Nat.lt_or_ge quotient (2 ^ 52) with small | large
  · have unshifted := subnormal small
    rw [magnitude_subnormal (exponent.trans (by omega)), fraction, unshifted]
    omega
  · rcases Nat.lt_or_eq_of_le carried with normal | carry
    · have significand : (shift * 2 ^ 52 + quotient) % 2 ^ 52 = quotient - 2 ^ 52 := by omega
      rw [magnitude_normal (exponent.trans (show _ = shift + 1 by omega)), fraction, significand,
        Nat.pow_eq, Nat.pow_eq, Nat.add_sub_cancel' large]
    · have significand : (shift * 2 ^ 52 + quotient) % 2 ^ 52 = 0 := by omega
      rw [magnitude_normal (exponent.trans (show _ = shift + 1 + 1 by omega)), fraction,
        significand, carry, Nat.pow_eq, Nat.pow_eq, Nat.pow_succ 2 shift]
      omega

/-- The bits of a rounded natural, in units of `2 ^ -1074`. -/
def roundedBits (n : Nat) : Nat := excess n * 2 ^ 52 + roundQuotient n (2 ^ excess n)

theorem nearest_one (negative : Bool) (numerator : Nat) {places : Nat} (unit : 1074 = places) :
    nearest negative numerator 1 = ofSigned negative (roundedBits (numerator * 2 ^ places)) := by
  rw [nearest, unit, Nat.div_one, Nat.one_mul]
  rfl

theorem ofInt_eq (value : Int) :
    ofInt value = ofSigned (value < 0) (roundedBits (value * 2 ^ 1074).natAbs) := by
  rw [natAbs_mul_pow, ofInt, nearest_one _ _ rfl]

theorem roundQuotient_excess_le (n : Nat) : roundQuotient n (2 ^ excess n) ≤ 2 ^ 53 :=
  roundQuotient_le (lt_of_excess n).le

theorem magnitude_roundedBits {n : Nat} (fits : excess n < 2045) :
    (ofSigned negative (roundedBits n)).magnitude = roundNat n := by
  apply magnitude_ofSigned (roundQuotient_excess_le n) _ fits
  intro subnormal
  by_contra long
  have atLeast := le_roundQuotient (Nat.two_pow_pos _) (le_of_excess long)
  omega

theorem fields_roundedBits {n : Nat} (fits : excess n < 2045) :
    (ofSigned negative (roundedBits n)).isNegative = negative ∧
      (ofSigned negative (roundedBits n)).isNaN = false := by
  have carried := roundQuotient_excess_le n
  rcases @fields_ofSigned negative (roundedBits n) (by unfold roundedBits; omega) with
    ⟨sign, exponent, _⟩
  refine ⟨sign, isNaN_of_finite ?_⟩
  rw [isFinite, exponent, roundedBits, bne_iff_ne]
  omega

section OfInt

variable (small : value.natAbs < 2 ^ 64)
include small

theorem excess_scaled : excess (value * 2 ^ 1074).natAbs < 2045 := by
  rw [natAbs_mul_pow]
  by_cases zero : value.natAbs = 0
  · rw [zero, Nat.zero_mul]
    decide
  · have log := (Nat.log2_lt zero).mpr small
    rw [excess, log2_mul_pow zero]
    omega

theorem isNegative_ofInt : (ofInt value).isNegative = decide (value < 0) := by
  rw [ofInt_eq]
  exact (fields_roundedBits (excess_scaled small)).1

theorem isNaN_ofInt : (ofInt value).isNaN = false := by
  rw [ofInt_eq]
  exact (fields_roundedBits (excess_scaled small)).2

/-- The double nearest to an integer is that integer rounded to 53 significant bits. -/
theorem units_ofInt : (ofInt value).units = roundInt value * 2 ^ 1074 := by
  have magnitude : (ofInt value).magnitude = roundNat (value * 2 ^ 1074).natAbs := by
    rw [ofInt_eq, magnitude_roundedBits (excess_scaled small)]
  rw [← roundInt_mul_pow, units, isNegative_ofInt small, magnitude, roundInt]
  simp only [mul_pow_neg, decide_eq_true_eq]

/-- Integers have the same nearest double if they are rounded to the same integer. -/
theorem ofInt_eq_ofInt {other : Int} (otherSmall : other.natAbs < 2 ^ 64) :
    ofInt value = ofInt other ↔ roundInt value = roundInt other := by
  have positive : (2 : Int) ^ 1074 ≠ 0 := Int.pow_ne_zero (by decide)
  have units := units_ofInt small
  have otherUnits := units_ofInt otherSmall
  constructor
  · intro same
    rw [same, otherUnits] at units
    exact (Int.eq_of_mul_eq_mul_right positive units).symm
  · intro same
    apply eq_of_magnitude
    · rw [isNegative_ofInt small, isNegative_ofInt otherSmall, decide_eq_decide, ← roundInt_neg,
        same, roundInt_neg]
    · rw [← natAbs_units, ← natAbs_units, units, otherUnits, same]

variable {bound : Binary64} (finite : bound.isFinite = true)
include finite

theorem ofInt_lt_iff :
    (ofInt value).lt bound = true ↔
      value * 2 ^ 1074 < bound.units ∧ roundInt value * 2 ^ 1074 ≠ bound.units := by
  have short : Short bound.units.natAbs := bound.natAbs_units ▸ bound.magnitude_short
  rw [← roundInt_mul_pow, ← roundInt_lt_iff short, roundInt_mul_pow, ← units_ofInt small]
  simp [lt, isNaN_ofInt small, isNaN_of_finite finite]

theorem lt_ofInt_iff :
    bound.lt (ofInt value) = true ↔
      bound.units < value * 2 ^ 1074 ∧ roundInt value * 2 ^ 1074 ≠ bound.units := by
  have short : Short bound.units.natAbs := bound.natAbs_units ▸ bound.magnitude_short
  rw [← roundInt_mul_pow, ← lt_roundInt_iff short, roundInt_mul_pow, ← units_ofInt small]
  simp [lt, isNaN_ofInt small, isNaN_of_finite finite]

end OfInt

end Binary64

end FilterLang
