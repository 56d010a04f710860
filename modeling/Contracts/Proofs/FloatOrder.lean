import Contracts.BinaryFloat
import Mathlib.Tactic.Ring

set_option autoImplicit false

/-! # Floats that stand for integers

The value of a floating type nearest to an integer has a code that is read off the integer's leading
bits (`FloatType.codeOf`). Codes are ordered as the integers are, as long as the lesser one has no
more bits than the format (`FloatType.codeOf_lt`). A value of the smaller type stands for an integer
itself (`BinaryFloat.cast_ofInt`), so an integer rounded to 64 bits and another one rounded to 32
compare as the integers do, unless both have more bits than the smaller format
(`BinaryFloat.order_of_ofInt`). -/

-- Powers are those of the core library, whatever else is imported.
attribute [local instance (high)] instPowNat

namespace Contracts

/-! ## Rounding to the even integer -/

theorem div_le_roundHalfEven (num den : Nat) : num / den ≤ roundHalfEven num den := by
  unfold roundHalfEven
  dsimp only
  split
  · exact Nat.le_refl _
  · split
    · exact Nat.le_add_right _ _
    · exact Nat.le_succ _

theorem roundHalfEven_le (num den : Nat) : roundHalfEven num den ≤ num / den + 1 := by
  unfold roundHalfEven
  dsimp only
  split
  · exact Nat.le_succ _
  · split
    · have := Nat.mod_lt (num / den) (by decide : 0 < 2)
      omega
    · exact Nat.le_refl _

/-- A whole number is its own rounding. -/
theorem roundHalfEven_mul_right (k : Nat) {den : Nat} (hden : 0 < den) :
    roundHalfEven (k * den) den = k := by
  unfold roundHalfEven
  simp [Nat.mul_div_cancel k hden, hden]

/-- Rounding depends on the quotient only. -/
theorem roundHalfEven_mul_mul_right (num den : Nat) {k : Nat} (hk : 0 < k) :
    roundHalfEven (num * k) (den * k) = roundHalfEven num den := by
  have hlt : 2 * (num % den * k) < den * k ↔ 2 * (num % den) < den := by
    rw [← Nat.mul_assoc]
    exact Nat.mul_lt_mul_right hk
  have heq : 2 * (num % den * k) = den * k ↔ 2 * (num % den) = den := by
    rw [← Nat.mul_assoc]
    exact Nat.mul_left_inj (Nat.ne_of_gt hk)
  unfold roundHalfEven
  dsimp only
  rw [Nat.mul_div_mul_right _ _ hk, Nat.mul_mod_mul_right]
  simp only [hlt, heq]

namespace FloatType

variable (t : FloatType) {m m' : Nat}

/-! ## Codes of integers -/

/-- The exponent of one, as the exponent field counts. -/
def bias : Nat := 2 ^ (t.exponentBits - 1) - 2

theorem scale_eq : t.scale = t.bias + t.fractionBits := rfl

/-- The leading bits of an integer, rounded. -/
def significand (m : Nat) : Nat := roundHalfEven (m * 2 ^ t.fractionBits) (2 ^ m.log2)

/-- The code of the value nearest to an integer. -/
def codeOf (m : Nat) : Nat :=
  if m = 0 then 0 else (m.log2 + t.bias) * 2 ^ t.fractionBits + t.significand m

variable {t}

theorem two_pow_le_significand (hm : m ≠ 0) : 2 ^ t.fractionBits ≤ t.significand m := by
  refine Nat.le_trans ?_ (div_le_roundHalfEven _ _)
  rw [Nat.le_div_iff_mul_le (Nat.two_pow_pos _), Nat.mul_comm]
  exact Nat.mul_le_mul_right _ (Nat.log2_self_le hm)

theorem significand_le (m : Nat) : t.significand m ≤ 2 ^ (t.fractionBits + 1) := by
  refine Nat.le_trans (roundHalfEven_le _ _) ?_
  rw [Nat.succ_le_iff, Nat.div_lt_iff_lt_mul (Nat.two_pow_pos _), Nat.pow_succ, Nat.mul_assoc,
    Nat.mul_comm m]
  refine Nat.mul_lt_mul_of_pos_left ?_ (Nat.two_pow_pos _)
  rw [Nat.mul_comm, ← Nat.pow_succ]
  exact Nat.lt_log2_self

/-- An integer of no more bits than the format has is its own leading bits. -/
theorem significand_of_log2_le (h : m.log2 ≤ t.fractionBits) :
    t.significand m = m * 2 ^ (t.fractionBits - m.log2) := by
  have hsplit : m * 2 ^ t.fractionBits = m * 2 ^ (t.fractionBits - m.log2) * 2 ^ m.log2 := by
    rw [Nat.mul_assoc, ← Nat.pow_add, Nat.sub_add_cancel h]
  rw [significand, hsplit, roundHalfEven_mul_right _ (Nat.two_pow_pos _)]

theorem codeOf_zero : t.codeOf 0 = 0 := rfl

theorem codeOf_of_ne_zero (hm : m ≠ 0) :
    t.codeOf m = (m.log2 + t.bias) * 2 ^ t.fractionBits + t.significand m := if_neg hm

/-- A greater integer has a greater code, if the lesser one has no more bits than the format. -/
theorem codeOf_lt (h : m < m') (exact : m < 2 ^ (t.fractionBits + 1)) :
    t.codeOf m < t.codeOf m' := by
  have hm' : m' ≠ 0 := by omega
  have hlow := two_pow_le_significand (t := t) hm'
  rw [codeOf_of_ne_zero hm']
  by_cases hm : m = 0
  · rw [hm, codeOf_zero]
    have := Nat.two_pow_pos t.fractionBits
    omega
  · rw [codeOf_of_ne_zero hm]
    have hbits : m.log2 ≤ t.fractionBits := Nat.lt_succ_iff.1 ((Nat.log2_lt hm).2 exact)
    have hexact := significand_of_log2_le hbits
    have hlog : m.log2 ≤ m'.log2 :=
      (Nat.le_log2 hm').2 (Nat.le_trans (Nat.log2_self_le hm) (Nat.le_of_lt h))
    rcases Nat.eq_or_lt_of_le hlog with heq | hlt
    -- With as many bits, both have room for all of them.
    · have hexact' := significand_of_log2_le (heq ▸ hbits)
      rw [hexact, hexact', ← heq]
      have := Nat.mul_lt_mul_of_pos_right h (Nat.two_pow_pos (t.fractionBits - m.log2))
      omega
    -- With fewer bits, the exponent is less, and no bit is lost that could make up for it.
    · have hbelow : t.significand m < 2 ^ t.fractionBits * 2 := by
        have hsplit : 2 ^ t.fractionBits * 2 =
            2 ^ (m.log2 + 1) * 2 ^ (t.fractionBits - m.log2) := by
          rw [← Nat.pow_succ, ← Nat.pow_add]
          congr 1
          omega
        rw [hexact, hsplit]
        exact Nat.mul_lt_mul_of_pos_right Nat.lt_log2_self (Nat.two_pow_pos _)
      have hexponent : (m.log2 + t.bias + 1) * 2 ^ t.fractionBits ≤
          (m'.log2 + t.bias) * 2 ^ t.fractionBits := Nat.mul_le_mul_right _ (by omega)
      rw [Nat.succ_mul] at hexponent
      omega

/-- Integers of no more than 64 bits, rounded up at most to the next power of two, are finite. -/
theorem codeOf_lt_infinityCode (h : m ≤ 2 ^ 64) : t.codeOf m < t.infinityCode := by
  by_cases hm : m = 0
  · rw [hm, codeOf_zero]
    cases t <;> decide
  · have hlog : m.log2 ≤ 64 :=
      Nat.lt_succ_iff.1 ((Nat.log2_lt hm).2 (Nat.lt_of_le_of_lt h (by decide)))
    have hexponent : (m.log2 + t.bias) * 2 ^ t.fractionBits ≤
        (64 + t.bias) * 2 ^ t.fractionBits := Nat.mul_le_mul_right _ (by omega)
    have hfinite : (64 + t.bias) * 2 ^ t.fractionBits + 2 ^ (t.fractionBits + 1) <
        t.infinityCode := by
      cases t <;> decide
    have hbound := significand_le (t := t) m
    rw [codeOf_of_ne_zero hm]
    omega

/-! ## Integers of a format -/

variable (t) in
/-- The integer that the value nearest to an integer stands for. -/
def rounded (m : Nat) : Nat :=
  if m.log2 ≤ t.fractionBits then m else t.significand m * 2 ^ (m.log2 - t.fractionBits)

theorem rounded_eq_self (h : m < 2 ^ (t.fractionBits + 1)) : t.rounded m = m := by
  by_cases hm : m = 0
  · subst hm
    rfl
  · exact if_pos (Nat.lt_succ_iff.1 ((Nat.log2_lt hm).2 h))

theorem two_pow_le_rounded (h : 2 ^ (t.fractionBits + 1) ≤ m) :
    2 ^ (t.fractionBits + 1) ≤ t.rounded m := by
  have hm : m ≠ 0 := by
    have := Nat.two_pow_pos (t.fractionBits + 1)
    omega
  have hlog : t.fractionBits + 1 ≤ m.log2 := (Nat.le_log2 hm).2 h
  rw [rounded, if_neg (by omega), Nat.pow_succ]
  refine Nat.mul_le_mul (two_pow_le_significand hm) ?_
  exact Nat.le_trans (by decide : 2 ≤ 2 ^ 1) (Nat.pow_le_pow_right (by decide) (by omega))

theorem rounded_pos (h : 0 < m) : 0 < t.rounded m := by
  rcases Nat.lt_or_ge m (2 ^ (t.fractionBits + 1)) with hlt | hge
  · rwa [rounded_eq_self hlt]
  · exact Nat.lt_of_lt_of_le (Nat.two_pow_pos _) (two_pow_le_rounded hge)

theorem rounded_le (h : m < 2 ^ 64) : t.rounded m ≤ 2 ^ 64 := by
  unfold rounded
  split
  · exact Nat.le_of_lt h
  · rename_i hlog
    have hm : m ≠ 0 := by
      rintro rfl
      exact hlog (Nat.zero_le _)
    have hbits : m.log2 < 64 := (Nat.log2_lt hm).2 h
    refine Nat.le_trans (Nat.mul_le_mul_right _ (significand_le m)) ?_
    rw [← Nat.pow_add]
    exact Nat.pow_le_pow_right (by decide) (by omega)

theorem units_normal (e : Nat) {fraction : Nat} (h : fraction < 2 ^ t.fractionBits) :
    t.units ((e + 1) * 2 ^ t.fractionBits + fraction) =
      (2 ^ t.fractionBits + fraction) * 2 ^ e := by
  have hexponent : ((e + 1) * 2 ^ t.fractionBits + fraction) >>> t.fractionBits = e + 1 := by
    rw [Nat.shiftRight_eq_div_pow, Nat.add_comm, Nat.add_mul_div_right _ _ (Nat.two_pow_pos _),
      Nat.div_eq_of_lt h, Nat.zero_add]
  have hfraction : ((e + 1) * 2 ^ t.fractionBits + fraction) % 2 ^ t.fractionBits = fraction := by
    rw [Nat.add_comm, Nat.add_mul_mod_self_right, Nat.mod_eq_of_lt h]
  unfold units
  simp [hexponent, hfraction, Nat.shiftLeft_eq]

/-- Leading bits that have been rounded up to a power of two are those of the next exponent. -/
theorem units_of_bounds (e : Nat) {q : Nat} (low : 2 ^ t.fractionBits ≤ q)
    (high : q ≤ 2 ^ (t.fractionBits + 1)) : t.units (e * 2 ^ t.fractionBits + q) = q * 2 ^ e := by
  rw [Nat.pow_succ] at high
  rcases Nat.eq_or_lt_of_le high with rfl | hlt
  · have hcode : e * 2 ^ t.fractionBits + 2 ^ t.fractionBits * 2 =
        (e + 1 + 1) * 2 ^ t.fractionBits + 0 := by
      ring
    rw [hcode, units_normal _ (Nat.two_pow_pos _)]
    ring
  · obtain ⟨fraction, rfl⟩ := Nat.exists_eq_add_of_le low
    have hcode : e * 2 ^ t.fractionBits + (2 ^ t.fractionBits + fraction) =
        (e + 1) * 2 ^ t.fractionBits + fraction := by
      ring
    rw [hcode, units_normal _ (by omega)]

/-- In units, the value nearest to an integer is the integer that it stands for. -/
theorem units_codeOf (m : Nat) : t.units (t.codeOf m) = t.rounded m * 2 ^ t.scale := by
  by_cases hm : m = 0
  · subst hm
    simp [codeOf_zero, units, rounded]
  · rw [codeOf_of_ne_zero hm, units_of_bounds _ (two_pow_le_significand hm) (significand_le m),
      rounded, scale_eq]
    split
    · rename_i hlog
      rw [significand_of_log2_le hlog, Nat.mul_assoc, ← Nat.pow_add]
      congr 2
      omega
    · rename_i hlog
      rw [Nat.mul_assoc, ← Nat.pow_add]
      congr 2
      omega

end FloatType

namespace BinaryFloat

variable {t : FloatType}

/-- Rounding depends on the quotient only. -/
theorem round_mul_right (t : FloatType) (negative : Bool) (num : Nat) {k : Nat} (hk : 0 < k) :
    round t negative (num * k) k = round t negative num 1 := by
  have hround : ∀ e, roundHalfEven (num * k) (k <<< e) = roundHalfEven num (1 <<< e) := by
    intro e
    rw [Nat.shiftLeft_eq, Nat.shiftLeft_eq, Nat.one_mul, Nat.mul_comm k,
      roundHalfEven_mul_mul_right _ _ hk]
  unfold round
  simp only [Nat.mul_div_cancel num hk, Nat.div_one, hround]

theorem log2_mul_two_pow {m : Nat} (hm : m ≠ 0) (k : Nat) : (m * 2 ^ k).log2 = m.log2 + k := by
  have hne : m * 2 ^ k ≠ 0 := Nat.mul_ne_zero hm (Nat.ne_of_gt (Nat.two_pow_pos k))
  refine (Nat.log2_eq_iff hne).2 ⟨?_, ?_⟩
  · rw [Nat.pow_add]
    exact Nat.mul_le_mul_right _ (Nat.log2_self_le hm)
  · rw [Nat.add_right_comm, Nat.pow_add]
    exact Nat.mul_lt_mul_of_pos_right Nat.lt_log2_self (Nat.two_pow_pos k)

/-- The code of the integer. -/
theorem round_shiftLeft (negative : Bool) {m : Nat} (hfinite : t.codeOf m < t.infinityCode) :
    round t negative (m <<< t.scale) 1 = .finite negative ⟨t.codeOf m, hfinite⟩ := by
  have hcode : ((m <<< t.scale / 1).log2 - t.fractionBits) * 2 ^ t.fractionBits +
      roundHalfEven (m <<< t.scale) (1 <<< ((m <<< t.scale / 1).log2 - t.fractionBits)) =
        t.codeOf m := by
    rw [Nat.div_one, Nat.shiftLeft_eq, Nat.shiftLeft_eq, Nat.one_mul]
    by_cases hm : m = 0
    · subst hm
      simp [FloatType.codeOf, roundHalfEven]
    · rw [log2_mul_two_pow hm, FloatType.codeOf_of_ne_zero hm, FloatType.scale_eq,
        ← Nat.add_assoc, Nat.add_sub_cancel]
      congr 1
      rw [Nat.add_comm t.bias, Nat.pow_add, ← Nat.mul_assoc, Nat.pow_add,
        roundHalfEven_mul_mul_right _ _ (Nat.two_pow_pos _)]
      rfl
  unfold round
  simp only [hcode, dif_pos hfinite]

/-! ## Order of integers -/

/-- The key of the value nearest to an integer. -/
def keyOf (t : FloatType) (n : Int) : Int := withSign (n < 0) (t.codeOf n.natAbs)

variable {n : Int}

theorem ofInt_eq (h : n.natAbs ≤ 2 ^ 64) : ofInt t n =
    .finite (n < 0) ⟨t.codeOf n.natAbs, FloatType.codeOf_lt_infinityCode h⟩ :=
  round_shiftLeft _ _

theorem key?_ofInt (h : n.natAbs ≤ 2 ^ 64) : (ofInt t n).key? = some (keyOf t n) := by
  rw [ofInt_eq h]
  rfl

/-- The integer that the value nearest to an integer stands for. -/
def roundedInt (t : FloatType) (n : Int) : Int := withSign (n < 0) (t.rounded n.natAbs)

theorem natAbs_withSign (negative : Bool) (m : Nat) : (withSign negative m).natAbs = m := by
  cases negative <;> simp [withSign]

theorem natAbs_roundedInt (t : FloatType) (n : Int) :
    (roundedInt t n).natAbs = t.rounded n.natAbs := natAbs_withSign _ _

/-- Rounding keeps the sign. -/
theorem roundedInt_neg_iff : roundedInt t n < 0 ↔ n < 0 := by
  by_cases h : n < 0
  · have hpos := FloatType.rounded_pos (t := t) (m := n.natAbs) (by omega)
    simp only [roundedInt, withSign, h, decide_true, if_true, iff_true]
    omega
  · simp only [roundedInt, withSign, h, decide_false, iff_false]
    exact Int.not_lt.2 (Int.natCast_nonneg _)

/-- What a 32-bit float stands for, a 64-bit float stands for too. -/
theorem cast_ofInt (h : n.natAbs < 2 ^ 64) :
    (ofInt .f32 n).cast .f64 = ofInt .f64 (roundedInt .f32 n) := by
  have hnum : FloatType.units .f32 (FloatType.codeOf .f32 n.natAbs) <<< FloatType.scale .f64 =
      FloatType.rounded .f32 n.natAbs <<< FloatType.scale .f64 * (1 <<< FloatType.scale .f32) := by
    rw [FloatType.units_codeOf, Nat.shiftLeft_eq, Nat.shiftLeft_eq, Nat.shiftLeft_eq, Nat.one_mul,
      Nat.mul_right_comm]
  have hden : 0 < 1 <<< FloatType.scale .f32 := by
    rw [Nat.shiftLeft_eq, Nat.one_mul]
    exact Nat.two_pow_pos _
  have hsign : decide (roundedInt .f32 n < 0) = decide (n < 0) :=
    decide_eq_decide.2 roundedInt_neg_iff
  rw [ofInt_eq (Nat.le_of_lt h), cast, hnum, round_mul_right _ _ _ hden, ofInt, hsign,
    natAbs_roundedInt]

/-- A greater integer has a greater key, if one of the two has no more bits than the format or they
have different signs. -/
theorem keyOf_lt {a b : Int} (h : a < b) (exact : a.natAbs < 2 ^ (t.fractionBits + 1) ∨
    b.natAbs < 2 ^ (t.fractionBits + 1) ∨ a < 0 ∧ 0 ≤ b) : keyOf t a < keyOf t b := by
  by_cases hb : b < 0
  · have ha : a < 0 := Int.lt_trans h hb
    have hcode := FloatType.codeOf_lt (t := t) (show b.natAbs < a.natAbs by omega) (by omega)
    simp only [keyOf, withSign, ha, hb, decide_true, if_true]
    omega
  · by_cases ha : a < 0
    · have hcode := FloatType.codeOf_lt (t := t) (show 0 < a.natAbs by omega) (Nat.two_pow_pos _)
      simp only [keyOf, withSign, ha, hb, decide_true, decide_false, if_true]
      simp
      omega
    · have hcode := FloatType.codeOf_lt (t := t) (show a.natAbs < b.natAbs by omega) (by omega)
      simp only [keyOf, withSign, ha, hb, decide_false]
      simpa using hcode

/-- **A 64-bit and a 32-bit float are ordered as the integers that they are nearest to**, unless
both integers have more bits than the 32-bit format. -/
theorem order_of_ofInt {a b : Int} (ha : a.natAbs < 2 ^ 64) (hb : b.natAbs < 2 ^ 64)
    (sign : 0 ≤ a ∨ 0 ≤ b) (small : a < 2 ^ 24 ∨ b < 2 ^ 24) :
    ∃ k l, (ofInt .f64 a).key? = some k ∧ ((ofInt .f32 b).cast .f64).key? = some l ∧
      (k < l ↔ a < b) ∧ (l < k ↔ b < a) := by
  have hbound : (roundedInt .f32 b).natAbs ≤ 2 ^ 64 := by
    rw [natAbs_roundedInt]
    exact FloatType.rounded_le hb
  have hneg := roundedInt_neg_iff (t := .f32) (n := b)
  have hnonneg : 0 ≤ b → roundedInt .f32 b = FloatType.rounded .f32 b.natAbs := by
    intro h
    simp [roundedInt, withSign, Int.not_lt.2 h]
  have hlarge : 2 ^ 24 ≤ b → 2 ^ 24 ≤ roundedInt .f32 b := by
    intro h
    have hrounded := FloatType.two_pow_le_rounded (t := .f32) (m := b.natAbs)
      (show 2 ^ 24 ≤ b.natAbs by omega)
    rw [hnonneg (by omega)]
    exact_mod_cast hrounded
  have hexact : 0 ≤ b → b < 2 ^ 24 → roundedInt .f32 b = b := by
    intro h hlt
    rw [hnonneg h, FloatType.rounded_eq_self (show b.natAbs < 2 ^ 24 by omega)]
    exact Int.natAbs_of_nonneg h
  have hbits : (2 : Nat) ^ (FloatType.fractionBits .f64 + 1) = 2 ^ 53 := rfl
  refine ⟨_, _, key?_ofInt (Nat.le_of_lt ha), by rw [cast_ofInt hb]; exact key?_ofInt hbound, ?_⟩
  have hlt : a < b → keyOf .f64 a < keyOf .f64 (roundedInt .f32 b) := by
    intro h
    refine keyOf_lt ?_ ?_ <;> omega
  have hgt : b < a → keyOf .f64 (roundedInt .f32 b) < keyOf .f64 a := by
    intro h
    refine keyOf_lt ?_ ?_ <;> omega
  have heq : a = b → keyOf .f64 a = keyOf .f64 (roundedInt .f32 b) := by
    rintro rfl
    rw [hexact (by omega) (by omega)]
  rcases Int.lt_trichotomy a b with h | h | h
  · have := hlt h
    omega
  · have := heq h
    omega
  · have := hgt h
    omega

end BinaryFloat

end Contracts
