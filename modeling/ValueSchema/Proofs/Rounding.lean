import Mathlib.Algebra.Order.Ring.Nat
import ValueSchema.Json.Number

/-! # Comparison of rounded integers

Binary64 numbers are equal if their magnitudes are, so places are replaced by magnitudes. -/

namespace ValueSchema

/-! ## Rounded quotients -/

theorem div_le_roundHalfEven (num den : Nat) : num / den ≤ roundHalfEven num den := by
  unfold roundHalfEven
  dsimp only
  split <;> omega

/-- A rounded quotient depends on the fraction only. -/
theorem roundHalfEven_mul_right (num den : Nat) {scale : Nat} (h : 0 < scale) :
    roundHalfEven (num * scale) (den * scale) = roundHalfEven num den := by
  have htwice : 2 * (num % den * scale) = 2 * (num % den) * scale := by rw [Nat.mul_assoc]
  simp only [roundHalfEven, Nat.mul_div_mul_right _ _ h, Nat.mul_mod_mul_right, htwice,
    Nat.mul_lt_mul_right h, Nat.mul_right_cancel_iff h]

@[simp] theorem roundHalfEven_one (num : Nat) : roundHalfEven num 1 = num := by
  simp [roundHalfEven, Nat.mod_one]

/-- A rounded quotient is off by half a unit at most. -/
theorem roundHalfEven_near (num : Nat) {den : Nat} (h : 0 < den) :
    2 * num ≤ 2 * (roundHalfEven num den * den) + den ∧
      2 * (roundHalfEven num den * den) ≤ 2 * num + den := by
  have hdiv : num / den * den + num % den = num := Nat.div_add_mod' num den
  have hmod : num % den < den := Nat.mod_lt num h
  have hsucc : (num / den + 1) * den = num / den * den + den := Nat.succ_mul _ _
  unfold roundHalfEven
  dsimp only
  split
  · omega
  · rw [hsucc]
    omega

namespace Binary64

/-! ## Magnitudes by place -/

/-- The magnitude of a significand of 53 digits behind `shift` binades. The significand may be
the first of the next binade. -/
theorem unitsAt_significand (shift : Nat) {significand : Nat} (least : perBinade ≤ significand)
    (most : significand ≤ 2 * perBinade) :
    unitsAt (shift * perBinade + significand) = significand * 2 ^ shift := by
  unfold perBinade at least most
  unfold unitsAt perBinade
  rw [if_neg (by omega)]
  rcases Nat.lt_or_eq_of_le most with hlt | rfl
  · have hmod : (shift * 4503599627370496 + significand) % 4503599627370496 =
        significand - 4503599627370496 := by omega
    have hdiv : (shift * 4503599627370496 + significand) / 4503599627370496 = shift + 1 := by
      omega
    rw [hmod, hdiv, Nat.add_sub_cancel' least]
    rfl
  · have hmod : (shift * 4503599627370496 + 2 * 4503599627370496) % 4503599627370496 = 0 := by
      omega
    have hdiv : (shift * 4503599627370496 + 2 * 4503599627370496) / 4503599627370496 - 1 =
        shift + 1 := by omega
    rw [hmod, hdiv, Nat.pow_eq, Nat.pow_succ']
    omega

theorem unitsAt_of_lt {place : Nat} (h : place < perBinade) : unitsAt place = place := by
  rw [unitsAt, if_pos h]

theorem unitsAt_strictMono : StrictMono unitsAt := by
  refine strictMono_nat_of_lt_succ fun place => ?_
  rcases Nat.lt_or_ge place perBinade with hlt | hge
  · rw [unitsAt_of_lt hlt]
    rcases Nat.lt_or_eq_of_le (Nat.succ_le_of_lt hlt) with hlt' | heq
    · rw [unitsAt_of_lt hlt']
      exact Nat.lt_succ_self place
    · have hnext := unitsAt_significand 0 (Nat.le_refl perBinade) (by decide)
      rw [Nat.zero_mul, Nat.zero_add, Nat.pow_zero, Nat.mul_one] at hnext
      rwa [show place + 1 = perBinade from heq, hnext]
  · -- The next place has the next significand, even where it begins a new binade.
    obtain ⟨shift, significand, hplace, least, most⟩ : ∃ shift significand,
        place = shift * perBinade + significand ∧ perBinade ≤ significand ∧
          significand < 2 * perBinade := by
      refine ⟨place / perBinade - 1, perBinade + place % perBinade, ?_⟩
      unfold perBinade at hge ⊢
      omega
    rw [hplace, unitsAt_significand shift least most.le, Nat.add_assoc,
      unitsAt_significand shift (Nat.le_succ_of_le least) most]
    exact Nat.mul_lt_mul_of_pos_right (Nat.lt_succ_self _) (Nat.two_pow_pos shift)

theorem one_eq : one = 2 ^ unitExponent := by
  unfold one
  generalize unitExponent = exponent
  exact Nat.pow_eq

theorem one_pos : 0 < one := by
  rw [one_eq]
  exact Nat.two_pow_pos unitExponent

/-- The number itself, in units. -/
def scaled (x : Binary64) : Int := if x.negative then -(x.units : Int) else x.units

theorem units_eq_zero_iff {x : Binary64} : x.units = 0 ↔ x.place = 0 :=
  unitsAt_strictMono.injective.eq_iff' rfl

/-- Equality of binary64 numbers is equality of what they stand for. -/
theorem numEq_iff {x y : Binary64} : x.numEq y = true ↔ x.scaled = y.scaled := by
  have hplace : x.place = y.place ↔ x.units = y.units :=
    unitsAt_strictMono.injective.eq_iff.symm
  have hzero : x.place = 0 ↔ x.units = 0 := units_eq_zero_iff.symm
  simp only [numEq, Bool.and_eq_true, Bool.or_eq_true, beq_iff_eq, hplace, hzero, scaled]
  cases x.negative <;> cases y.negative <;> simp <;> omega

/-! ## Rounding to 53 digits -/

/-- A natural number rounded to 53 binary digits, a half to the even neighbour. -/
def round53 (n : Nat) : Nat :=
  roundHalfEven n (2 ^ (Nat.log2 n - 52)) * 2 ^ (Nat.log2 n - 52)

theorem round53_of_log2_le {n : Nat} (h : Nat.log2 n ≤ 52) : round53 n = n := by
  rw [round53, Nat.sub_eq_zero_of_le h, Nat.pow_zero, roundHalfEven_one, Nat.mul_one]

theorem round53_zero : round53 0 = 0 := round53_of_log2_le (by simp)

theorem log2_mul_two_pow {n : Nat} (h : n ≠ 0) (exponent : Nat) :
    Nat.log2 (n * 2 ^ exponent) = Nat.log2 n + exponent := by
  have hpos : 0 < 2 ^ exponent := Nat.two_pow_pos exponent
  rw [Nat.log2_eq_iff (Nat.mul_ne_zero h hpos.ne'), Nat.pow_add, Nat.add_right_comm, Nat.pow_add]
  exact ⟨Nat.mul_le_mul_right _ (Nat.log2_self_le h),
    Nat.mul_lt_mul_of_pos_right Nat.lt_log2_self hpos⟩

/-- Powers of two do not matter to rounding. -/
theorem round53_mul_two_pow (n exponent : Nat) :
    round53 (n * 2 ^ exponent) = round53 n * 2 ^ exponent := by
  by_cases hn : n = 0
  · rw [hn, Nat.zero_mul, round53_zero, Nat.zero_mul]
  rcases Nat.le_total 52 (Nat.log2 n) with hlong | hshort
  · have hshift : Nat.log2 n + exponent - 52 = Nat.log2 n - 52 + exponent := by omega
    rw [round53, log2_mul_two_pow hn, hshift, Nat.pow_add,
      roundHalfEven_mul_right _ _ (Nat.two_pow_pos exponent), ← Nat.mul_assoc, ← round53]
  · -- A number of at most 53 digits is a multiple of the step that it is rounded to.
    rw [round53_of_log2_le hshort, round53, log2_mul_two_pow hn]
    rcases Nat.le_total (Nat.log2 n + exponent) 52 with hle | hge
    · rw [Nat.sub_eq_zero_of_le hle, Nat.pow_zero, roundHalfEven_one, Nat.mul_one]
    · have hsplit : n * 2 ^ exponent =
          n * 2 ^ (52 - Nat.log2 n) * 2 ^ (Nat.log2 n + exponent - 52) := by
        rw [Nat.mul_assoc, ← Nat.pow_add]
        congr 2
        omega
      have hquotient := roundHalfEven_mul_right (n * 2 ^ (52 - Nat.log2 n)) 1
        (Nat.two_pow_pos (Nat.log2 n + exponent - 52))
      rw [Nat.one_mul, roundHalfEven_one] at hquotient
      rw [hsplit, hquotient]

/-- The magnitude at the nearest place is the given one, rounded to 53 digits. -/
theorem unitsAt_nearest (n : Nat) : unitsAt (nearest n 1) = round53 n := by
  simp only [nearest, Nat.div_one, Nat.one_mul, Nat.pow_eq]
  rcases Nat.lt_or_ge (Nat.log2 n) 52 with hshort | hlong
  · have hlt : n < perBinade := by
      by_cases hn : n = 0
      · rw [hn]
        decide
      · exact (Nat.log2_lt hn).mp hshort
    rw [round53_of_log2_le hshort.le, Nat.sub_eq_zero_of_le hshort.le, Nat.zero_mul, Nat.pow_zero,
      roundHalfEven_one, Nat.zero_add, unitsAt_of_lt hlt]
  · have hn : n ≠ 0 := by
      rintro rfl
      simp at hlong
    have hlower : perBinade ≤ n / 2 ^ (Nat.log2 n - 52) := by
      rw [Nat.le_div_iff_mul_le (Nat.two_pow_pos _)]
      calc perBinade * 2 ^ (Nat.log2 n - 52)
          = 2 ^ (52 + (Nat.log2 n - 52)) := by rw [Nat.pow_add]; rfl
        _ = 2 ^ Nat.log2 n := by rw [Nat.add_sub_cancel' hlong]
        _ ≤ n := Nat.log2_self_le hn
    have hupper : n / 2 ^ (Nat.log2 n - 52) < 2 * perBinade := div_pow_log2_lt n
    have hleast := div_le_roundHalfEven n (2 ^ (Nat.log2 n - 52))
    have hmost := roundHalfEven_le n (2 ^ (Nat.log2 n - 52))
    rw [unitsAt_significand _ (hlower.trans hleast) (by omega), round53]

/-- Rounding moves a number by half a step at most. -/
theorem round53_near (n bits : Nat) (h : n < 2 ^ bits) :
    2 * n ≤ 2 * round53 n + 2 ^ (bits - 53) ∧ 2 * round53 n ≤ 2 * n + 2 ^ (bits - 53) := by
  have hstep : 2 ^ (Nat.log2 n - 52) ≤ 2 ^ (bits - 53) := by
    by_cases hn : n = 0
    · rw [hn]
      exact Nat.two_pow_pos _
    · have hlog : Nat.log2 n < bits := (Nat.log2_lt hn).mpr h
      exact Nat.pow_le_pow_right (by decide) (by omega)
  have hnear := roundHalfEven_near n (Nat.two_pow_pos (Nat.log2 n - 52))
  unfold round53
  omega

/-- An integer rounded to 53 binary digits. -/
def roundInt (value : Int) : Int := value.sign * round53 value.natAbs

theorem roundInt_near {value : Int} (h : value.natAbs < 18446744073709551616) :
    (roundInt value - value).natAbs ≤ 1024 := by
  have hround := round53_near value.natAbs 64 h
  rw [roundInt]
  rcases Int.lt_trichotomy value 0 with hneg | rfl | hpos
  · rw [Int.sign_eq_neg_one_of_neg hneg]
    omega
  · decide
  · rw [Int.sign_eq_one_of_pos hpos]
    omega

theorem scaled_ofInt {value : Int} (h : value.natAbs < 18446744073709551616) :
    (ofInt value h).scaled = roundInt value * one := by
  have hunits : (ofInt value h).units = round53 value.natAbs * one := by
    rw [one_eq, ← round53_mul_two_pow, ← one_eq]
    exact unitsAt_nearest (value.natAbs * one)
  rw [scaled, hunits, roundInt, Int.natCast_mul, ofInt, Int.mul_assoc]
  generalize hsize : (round53 value.natAbs : Int) * (one : Int) = size
  rcases Int.lt_trichotomy value 0 with hneg | rfl | hpos
  · simp [hneg, Int.sign_eq_neg_one_of_neg hneg]
  · obtain rfl : size = 0 := by
      rw [← hsize, Int.natAbs_zero, round53_zero, Int.natCast_zero, Int.zero_mul]
    simp
  · simp [hpos.not_gt, Int.sign_eq_one_of_pos hpos]

end Binary64

/-! ## Integers that pass as equal -/

namespace Number

/-- Different integers, not both in the signed range, that round to the same binary64 number. -/
structure Confused (a b : Int) : Prop where
  differ : a ≠ b
  unsigned : 9223372036854775808 ≤ a ∨ 9223372036854775808 ≤ b
  rounded_eq : Binary64.roundInt a = Binary64.roundInt b

theorem Confused.symm {a b : Int} (h : Confused a b) : Confused b a :=
  ⟨h.differ.symm, h.unsigned.symm, h.rounded_eq.symm⟩

theorem confused_comm {a b : Int} : Confused a b ↔ Confused b a := ⟨.symm, .symm⟩

/-- Only integers that are at most `2048` apart are confused. -/
theorem Confused.near {a b : Int} (h : Confused a b) (ha : Has64Bits a) (hb : Has64Bits b) :
    (a - b).natAbs ≤ 2048 := by
  have hfirst := Binary64.roundInt_near (natAbs_lt ha)
  have hsecond := Binary64.roundInt_near (natAbs_lt hb)
  rw [← h.rounded_eq] at hsecond
  omega

/-- Two integers pass as equal if they are equal or confused. -/
theorem numEq_integer_iff {a b : Int} (ha : Has64Bits a) (hb : Has64Bits b) :
    (integer a ha).numEq (integer b hb) = true ↔ a = b ∨ Confused a b := by
  by_cases hsigned : a < 9223372036854775808 ∧ b < 9223372036854775808
  · have hexact : (integer a ha).numEq (integer b hb) = (a == b) := by
      simp [numEq, toSigned?, hsigned]
    have hclear : ¬Confused a b := fun h => by
      have := h.unsigned
      omega
    simp [hexact, hclear]
  · have hrounded : (integer a ha).numEq (integer b hb) =
        (Binary64.ofInt a (natAbs_lt ha)).numEq (Binary64.ofInt b (natAbs_lt hb)) := by
      simp only [numEq, toSigned?]
      split
      · next hleft hright =>
          simp only [Option.ite_none_right_eq_some] at hleft hright
          exact absurd ⟨hleft.1, hright.1⟩ hsigned
      · rfl
    have hone : (Binary64.one : Int) ≠ 0 := by
      have := Binary64.one_pos
      omega
    rw [hrounded, Binary64.numEq_iff, Binary64.scaled_ofInt, Binary64.scaled_ofInt,
      Int.mul_eq_mul_right_iff hone]
    constructor
    · intro h
      by_cases heq : a = b
      · exact .inl heq
      · exact .inr ⟨heq, by omega, h⟩
    · rintro (rfl | h)
      · rfl
      · exact h.rounded_eq

end Number

end ValueSchema
