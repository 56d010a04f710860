import Contracts.Arithmetic
import Mathlib.Data.Int.Bitwise
import Mathlib.Data.Int.ModEq

set_option autoImplicit false

/-! # Exact integer operators

What the operators on two integers give in the type in which the integers meet, said in terms of the
integers alone (`BinaryOp.Exact`): sums, differences and products up to a multiple of what the width
holds, quotients toward zero and what they leave, bits of the two's complement, and the order of the
integers.

The same can be computed in registers of 128 bits, which no integer type exceeds
(`BinaryOp.evalWide`). A product of two integers may exceed a register, but what is kept of it does
not depend on that, and the one quotient for which there is no register never comes up. So nothing
traps on the way (`BinaryOp.evalWide_eq`). Main statement: `BinaryOp.exact_on_integers`. -/

-- Powers are those of the core library, whatever else is imported.
attribute [local instance (high)] instPowNat

namespace Contracts

/-! ## What is exact -/

namespace IntType

/-- The result is the integer of the type that agrees with `n` up to a multiple of what the width
holds. -/
def Congruent (t : IntType) (n : Int) (result : Except EvalError Value) : Prop :=
  ∃ bits : BitVec t.width, result = .ok (.int t bits) ∧
    t.toInt bits ≡ n [ZMOD ((2 ^ t.width : Nat) : Int)]

/-- The result has the given bits. -/
def HasBits (t : IntType) (bit : Nat → Bool) (result : Except EvalError Value) : Prop :=
  ∃ bits : BitVec t.width, result = .ok (.int t bits) ∧ ∀ i < t.width, bits.getLsbD i = bit i

/-- The one quotient of two integers of the type that is none itself. -/
def Overflows (t : IntType) (a b : Int) : Prop :=
  t.isSigned = true ∧ a = t.minValue ∧ b = -1

/-- The result of a division: one error if there is no quotient, another one if the type does not
hold the quotient, and else an integer of the type that is as it should be. -/
structure Divides (t : IntType) (a b : Int) (undefined overflow : EvalError) (good : Int → Prop)
    (result : Except EvalError Value) : Prop where
  zero : result = .error undefined ↔ b = 0
  overflows : result = .error overflow ↔ t.Overflows a b
  divides : b ≠ 0 → ¬t.Overflows a b → ∃ bits : BitVec t.width,
    result = .ok (.int t bits) ∧ good (t.toInt bits)

end IntType

/-- What an operator gives on two integers that meet in the type. -/
def BinaryOp.Exact (op : BinaryOp) (t : IntType) (a b : Int) (result : Except EvalError Value) :
    Prop :=
  match op with
  | .add => t.Congruent (a + b) result
  | .sub => t.Congruent (a - b) result
  | .mul => t.Congruent (a * b) result
  | .div => t.Divides a b .divisionByZero (.integerOverflow "division") (· = a.tdiv b) result
  | .mod => t.Divides a b .moduloByZero (.integerOverflow "remainder")
      (fun n => a = a.tdiv b * b + n) result
  | .eq => result = .ok (.bool (a = b))
  | .ne => result = .ok (.bool (a ≠ b))
  | .lt => result = .ok (.bool (a < b))
  | .gt => result = .ok (.bool (a > b))
  | .le => result = .ok (.bool (a ≤ b))
  | .ge => result = .ok (.bool (a ≥ b))
  | .bitAnd => t.HasBits (fun i => a.testBit i && b.testBit i) result
  | .bitOr => t.HasBits (fun i => a.testBit i || b.testBit i) result
  | .bitXor => t.HasBits (fun i => a.testBit i ^^ b.testBit i) result

/-! ## Integers of a type -/

namespace IntType

variable {t : IntType} {a b : Int}

/-- What is kept of an integer agrees with it. -/
theorem toInt_ofInt_modEq (t : IntType) (n : Int) :
    t.toInt (BitVec.ofInt t.width n) ≡ n [ZMOD ((2 ^ t.width : Nat) : Int)] := by
  unfold toInt
  split
  · rw [BitVec.toInt_ofInt]
    exact Int.bmod_emod
  · have hpos : ((2 ^ t.width : Nat) : Int) ≠ 0 := by
      exact_mod_cast (Nat.two_pow_pos t.width).ne'
    rw [BitVec.toNat_ofInt, Int.toNat_of_nonneg (Int.emod_nonneg n hpos)]
    exact Int.mod_modEq n _

theorem minValue_nonpos (t : IntType) : t.minValue ≤ 0 := by
  cases t <;> decide

theorem maxValue_nonneg (t : IntType) : 0 ≤ t.maxValue := by
  cases t <;> decide

/-- Two integers that meet are integers of the type in which they do. -/
theorem holds_of_promote {s t p : IntType} (h : s.promote t = some p) {a b : Int}
    (ha : s.Holds a) (hb : t.Holds b) : p.Holds a ∧ p.Holds b := by
  have hbounds : (p.minValue ≤ s.minValue ∧ s.maxValue ≤ p.maxValue) ∧
      p.minValue ≤ t.minValue ∧ t.maxValue ≤ p.maxValue := by
    revert h
    cases s <;> cases t <;> cases p <;> decide
  obtain ⟨⟨hsmin, hsmax⟩, htmin, htmax⟩ := hbounds
  exact ⟨⟨hsmin.trans ha.1, ha.2.trans hsmax⟩, ⟨htmin.trans hb.1, hb.2.trans htmax⟩⟩

/-- The bounds of a signed type are opposite but for one; an unsigned type has no negative
integers. -/
theorem neg_minValue_cases (t : IntType) :
    t.isSigned = true ∧ -t.minValue = t.maxValue + 1 ∨ t.isSigned = false ∧ t.minValue = 0 := by
  cases t <;> decide

/-- A quotient of two integers of a type is one too, but for the negative of the least. -/
theorem holds_tdiv_iff (ha : t.Holds a) (hb : t.Holds b) (hzero : b ≠ 0) :
    t.Holds (a.tdiv b) ↔ ¬t.Overflows a b := by
  obtain ⟨hlow, hhigh⟩ := ha
  have hmin := t.minValue_nonpos
  have hmax := t.maxValue_nonneg
  by_cases hneg : b = -1
  · subst hneg
    rw [Int.tdiv_neg, Int.tdiv_one]
    unfold Holds Overflows
    rcases t.neg_minValue_cases with ⟨hsigned, hopposite⟩ | ⟨hsigned, hmin⟩
    · simp only [hsigned, true_and, and_true]
      omega
    · exact absurd (hmin ▸ hb.1) (by decide)
  · have hsize : (a.tdiv b).natAbs ≤ a.natAbs := Int.natAbs_tdiv_le_natAbs a b
    refine iff_of_true ?_ fun h => hneg h.2.2
    rcases t.neg_minValue_cases with ⟨-, hopposite⟩ | ⟨-, hmin⟩
    · -- The quotient is half of `a` at most, unless it is `a`.
      by_cases hone : b = 1
      · rw [hone, Int.tdiv_one]
        exact ⟨hlow, hhigh⟩
      · have hhalf : (a.tdiv b).natAbs ≤ a.natAbs / 2 := by
          rw [Int.natAbs_tdiv]
          exact Nat.div_le_div_left (by omega) (by decide)
        constructor <;> omega
    · have hquotient := Int.tdiv_nonneg (hmin ▸ hlow) (hmin ▸ hb.1)
      constructor <;> omega

/-- What a division leaves is between zero and the dividend. -/
theorem holds_tmod (ha : t.Holds a) (b : Int) : t.Holds (a.tmod b) := by
  obtain ⟨hlow, hhigh⟩ := ha
  have hmin := t.minValue_nonpos
  have hmax := t.maxValue_nonneg
  have hsize : (a.tmod b).natAbs ≤ a.natAbs := by
    rw [Int.natAbs_tmod]
    exact Nat.mod_le _ _
  rcases Int.le_total 0 a with ha | ha
  · have hrest := Int.tmod_nonneg b ha
    constructor <;> omega
  · have hrest := Int.tmod_nonneg b (Int.neg_nonneg_of_nonpos ha)
    rw [Int.neg_tmod] at hrest
    constructor <;> omega

end IntType

/-- The bits of what is kept of an integer are those of the integer. -/
theorem getLsbD_ofInt {w i : Nat} (n : Int) (h : i < w) :
    (BitVec.ofInt w n).getLsbD i = n.testBit i := by
  cases n with
  | ofNat n =>
      rw [Int.ofNat_eq_natCast, BitVec.ofInt_natCast, BitVec.getLsbD_ofNat]
      simp [h, Int.testBit]
  | negSucc n =>
      rw [BitVec.ofInt_negSucc_eq_not_ofNat, BitVec.getLsbD_not, BitVec.getLsbD_ofNat]
      simp [h, Int.testBit]

/-! ## The operators are exact -/

namespace BinaryOp

variable {t : IntType} {a b : Int}

theorem congruent_wrap (t : IntType) (n : Int) : t.Congruent n (.ok (t.wrap n)) :=
  ⟨_, rfl, t.toInt_ofInt_modEq n⟩

/-- What is computed if there is a quotient, and the type holds it. -/
theorem divides_of_holds {undefined overflow : EvalError} {good : Int → Prop} {n : Int}
    (ha : t.Holds a) (hb : t.Holds b) (distinct : undefined ≠ overflow)
    (holds : t.Holds (a.tdiv b) → t.Holds n) (hgood : good n) :
    t.Divides a b undefined overflow good
      (if b = 0 then .error undefined
        else if t.Holds (a.tdiv b) then .ok (t.wrap n) else .error overflow) := by
  by_cases hzero : b = 0
  · rw [if_pos hzero]
    exact ⟨by simp [hzero], by simp [IntType.Overflows, hzero, distinct], fun h => absurd hzero h⟩
  · have hholds := IntType.holds_tdiv_iff ha hb hzero
    rw [if_neg hzero]
    by_cases hover : t.Overflows a b
    · rw [if_neg (mt hholds.1 (not_not_intro hover))]
      exact ⟨by simp [hzero, distinct.symm], by simp [hover], fun _ h => absurd hover h⟩
    · have hquotient := hholds.2 hover
      rw [if_pos hquotient]
      refine ⟨by simp [hzero], by simp [hover], fun _ _ => ⟨_, rfl, ?_⟩⟩
      rwa [IntType.toInt_ofInt (holds hquotient)]

/-- Bits are combined one by one. -/
theorem hasBits_of_getLsbD {bit : Bool → Bool → Bool}
    {f : BitVec t.width → BitVec t.width → BitVec t.width}
    (h : ∀ x y i, (f x y).getLsbD i = bit (x.getLsbD i) (y.getLsbD i)) :
    t.HasBits (fun i => bit (a.testBit i) (b.testBit i))
      (.ok (.int t (f (BitVec.ofInt t.width a) (BitVec.ofInt t.width b)))) := by
  refine ⟨_, rfl, fun i hi => ?_⟩
  rw [h, getLsbD_ofInt a hi, getLsbD_ofInt b hi]

/-- An operator is exact on integers of one type. -/
theorem exact_evalInt (op : BinaryOp) (ha : t.Holds a) (hb : t.Holds b) :
    op.Exact t a b (op.evalInt t a b) := by
  cases op with
  | add | sub | mul => exact congruent_wrap t _
  | div => exact divides_of_holds ha hb (by simp) id rfl
  | mod =>
      have hrest : a = a.tdiv b * b + a.tmod b := (Int.tdiv_mul_add_tmod a b).symm
      exact divides_of_holds ha hb (by simp) (fun _ => IntType.holds_tmod ha b) hrest
  | bitAnd => exact hasBits_of_getLsbD fun x y i => BitVec.getLsbD_and
  | bitOr => exact hasBits_of_getLsbD fun x y i => BitVec.getLsbD_or
  | bitXor => exact hasBits_of_getLsbD fun x y i => BitVec.getLsbD_xor
  | eq | ne | lt | gt | le | ge => simp [Exact, evalInt, beq_eq_decide, bne]

end BinaryOp

/-! ## Registers -/

/-- A register of 128 bits, which stands for a signed integer. -/
abbrev Wide := BitVec 128

namespace Wide

/-- Division in registers, which traps if there is no quotient or no register for it. -/
def div? (a b : Wide) : Option Wide :=
  if b = 0#128 ∨ a = BitVec.intMin 128 ∧ b = -1#128 then none else some (a.sdiv b)

/-- What division in registers leaves; it traps where division does. -/
def rem? (a b : Wide) : Option Wide :=
  if b = 0#128 ∨ a = BitVec.intMin 128 ∧ b = -1#128 then none else some (a.srem b)

end Wide

namespace IntType

/-- The bits in a register, extended by the sign if there is one. -/
def extend (t : IntType) (bits : BitVec t.width) : Wide :=
  if t.isSigned then bits.signExtend 128 else bits.setWidth 128

/-- The low bits of a register. -/
def truncate (t : IntType) (n : Wide) : Value := .int t (n.setWidth t.width)

/-- What a register holds, if it is an integer of the type. -/
def fit? (t : IntType) (n : Wide) : Option Value :=
  if t.Holds n.toInt then some (t.truncate n) else none

end IntType

/-- An operator on two integers, computed in registers; `none` if a computation traps. Division
gives an error where it would trap. The remainder is only computed after the quotient, which is not
protected. -/
def BinaryOp.evalWide (op : BinaryOp) (t : IntType) (a b : Wide) :
    Option (Except EvalError Value) :=
  let fitting (n : Option Wide) (overflow : String) : Except EvalError Value :=
    match n.bind t.fit? with
    | some v => .ok v
    | none => .error (.integerOverflow overflow)
  match op with
  | .add => some (.ok (t.truncate (a + b)))
  | .sub => some (.ok (t.truncate (a - b)))
  | .mul => some (.ok (t.truncate (a * b)))
  | .div => some (if b = 0#128 then .error .divisionByZero else fitting (a.div? b) "division")
  | .mod =>
      if b = 0#128 then some (.error .moduloByZero)
      else (a.div? b).map fun q =>
        if (t.fit? q).isNone then .error (.integerOverflow "remainder")
        else fitting (a.rem? b) "remainder"
  | .eq => some (.ok (.bool (a == b)))
  | .ne => some (.ok (.bool (a != b)))
  | .lt => some (.ok (.bool (a.slt b)))
  | .gt => some (.ok (.bool (b.slt a)))
  | .le => some (.ok (.bool (a.sle b)))
  | .ge => some (.ok (.bool (b.sle a)))
  | .bitAnd => some (.ok (t.truncate (a &&& b)))
  | .bitOr => some (.ok (t.truncate (a ||| b)))
  | .bitXor => some (.ok (t.truncate (a ^^^ b)))

namespace IntType

variable {t : IntType}

theorem width_le (t : IntType) : t.width ≤ 64 := by
  cases t <;> decide

/-- An integer of a type is far from the bounds of a register. -/
theorem bounds_of_holds {n : Int} (h : t.Holds n) : -2 ^ 64 ≤ n ∧ n < 2 ^ 64 := by
  obtain ⟨low, high⟩ := h
  cases t <;> simp [minValue, maxValue, isSigned, width] at low high <;> omega

/-- A register into which a value is extended holds the integer of the value. -/
theorem toInt_extend (t : IntType) (bits : BitVec t.width) :
    (t.extend bits).toInt = t.toInt bits := by
  have hwidth := t.width_le
  unfold extend toInt
  split
  · exact BitVec.toInt_signExtend_of_le (by omega)
  · rw [BitVec.toInt_setWidth, Int.bmod_eq_of_le]
    · omega
    · have hlt : bits.toNat < 2 ^ 64 :=
        Nat.lt_of_lt_of_le bits.isLt (Nat.pow_le_pow_right (by decide) hwidth)
      omega

/-- The low bits of a register are those of the integer that it holds. -/
theorem setWidth_eq (t : IntType) (n : Wide) :
    n.setWidth t.width = BitVec.ofInt t.width n.toInt :=
  (BitVec.signExtend_eq_setWidth_of_le n (t.width_le.trans (by decide))).symm

theorem truncate_eq (t : IntType) (n : Wide) : t.truncate n = t.wrap n.toInt := by
  rw [truncate, wrap, setWidth_eq]

/-- What has overflown a register has the same low bits. -/
theorem wrap_bmod (t : IntType) (n : Int) : t.wrap (n.bmod (2 ^ 128)) = t.wrap n := by
  have hdvd : 2 ^ t.width ∣ 2 ^ 128 := Nat.pow_dvd_pow 2 (t.width_le.trans (by decide))
  have hlow : BitVec.ofInt t.width (n.bmod (2 ^ 128)) = BitVec.ofInt t.width n := by
    refine BitVec.eq_of_toInt_eq ?_
    rw [BitVec.toInt_ofInt, BitVec.toInt_ofInt, Int.bmod_bmod_of_dvd hdvd]
  rw [wrap, wrap, hlow]

theorem fit?_eq (t : IntType) (n : Wide) : t.fit? n = t.ofInt? n.toInt := by
  rw [fit?, ofInt?, truncate_eq]

end IntType

namespace Wide

variable {t : IntType} {a b : Wide}

theorem toInt_intMin : (BitVec.intMin 128).toInt = -2 ^ 127 := by decide

/-- On integers of a type, division only traps if there is no quotient. -/
theorem not_traps (ha : t.Holds a.toInt) (hzero : b ≠ 0#128) :
    ¬(b = 0#128 ∨ a = BitVec.intMin 128 ∧ b = -1#128) := by
  rintro (hb | ⟨rfl, -⟩)
  · exact hzero hb
  · have hbounds := (IntType.bounds_of_holds ha).1
    rw [toInt_intMin] at hbounds
    omega

theorem div?_eq (ha : t.Holds a.toInt) (hzero : b ≠ 0#128) :
    ∃ q, a.div? b = some q ∧ q.toInt = a.toInt.tdiv b.toInt := by
  refine ⟨_, if_neg (not_traps ha hzero), BitVec.toInt_sdiv_of_ne_or_ne a b (Or.inl ?_)⟩
  rintro rfl
  have hbounds := (IntType.bounds_of_holds ha).1
  rw [toInt_intMin] at hbounds
  omega

theorem rem?_eq (ha : t.Holds a.toInt) (hzero : b ≠ 0#128) :
    ∃ n, a.rem? b = some n ∧ n.toInt = a.toInt.tmod b.toInt :=
  ⟨_, if_neg (not_traps ha hzero), BitVec.toInt_srem a b⟩

end Wide

namespace BinaryOp

variable {t : IntType} {a b : Wide}

/-- **Nothing traps.** On integers of one type, computing in registers comes to an end and gives
what the operator gives. -/
theorem evalWide_eq (op : BinaryOp) (ha : t.Holds a.toInt) :
    op.evalWide t a b = some (op.evalInt t a.toInt b.toInt) := by
  have hzero : b = 0#128 ↔ b.toInt = 0 := by
    rw [← BitVec.toInt_inj, BitVec.toInt_zero]
  have heq : a = b ↔ a.toInt = b.toInt := BitVec.toInt_inj.symm
  cases op with
  | add => rw [evalWide, evalInt, IntType.truncate_eq, BitVec.toInt_add, IntType.wrap_bmod]
  | sub => rw [evalWide, evalInt, IntType.truncate_eq, BitVec.toInt_sub, IntType.wrap_bmod]
  | mul => rw [evalWide, evalInt, IntType.truncate_eq, BitVec.toInt_mul, IntType.wrap_bmod]
  | div =>
      by_cases hb : b = 0#128
      · simp [evalWide, evalInt, hb]
      · obtain ⟨q, hq, hquotient⟩ := Wide.div?_eq ha hb
        have hne := mt hzero.2 hb
        by_cases hholds : t.Holds (a.toInt.tdiv b.toInt) <;>
          simp [evalWide, evalInt, hb, hne, hq, IntType.fit?_eq, IntType.ofInt?, hquotient, hholds]
  | mod =>
      by_cases hb : b = 0#128
      · simp [evalWide, evalInt, hb]
      · obtain ⟨q, hq, hquotient⟩ := Wide.div?_eq ha hb
        obtain ⟨n, hn, hrest⟩ := Wide.rem?_eq ha hb
        have hne := mt hzero.2 hb
        have hfits := IntType.holds_tmod ha b.toInt
        by_cases hholds : t.Holds (a.toInt.tdiv b.toInt) <;>
          simp [evalWide, evalInt, hb, hne, hq, hn, IntType.fit?_eq, IntType.ofInt?, hquotient,
            hrest, hfits, hholds]
  | eq | ne => simp [evalWide, evalInt, beq_eq_decide, bne, heq]
  | lt | gt | le | ge => simp [evalWide, evalInt, BitVec.slt_eq_decide, BitVec.sle_eq_decide]
  | bitAnd | bitOr | bitXor =>
      simp [evalWide, evalInt, IntType.truncate, IntType.setWidth_eq]

/-- **Integer operators are exact.** If the types of two integers meet in a type, an operator gives
there what is exact, and computing that in registers gives the same and never traps. If they do not
meet, every operator refuses the two types. -/
theorem exact_on_integers (op : BinaryOp) (s t : IntType) (x : BitVec s.width)
    (y : BitVec t.width) :
    (∀ p, s.promote t = some p →
      op.Exact p (s.toInt x) (t.toInt y) (op.eval (.int s x) (.int t y)) ∧
        op.evalWide p (s.extend x) (t.extend y) = some (op.eval (.int s x) (.int t y))) ∧
      (s.promote t = none →
        op.eval (.int s x) (.int t y) = .error (.binaryTypeMismatch s.name t.name)) := by
  have heval : op.eval (.int s x) (.int t y) = op.evalNumeric (.int s x) (.int t y) := by
    simp [eval, Value.bool?, Value.str?, Value.nullableText?]
  refine ⟨fun p hp => ?_, fun hnone => ?_⟩
  · obtain ⟨hx, hy⟩ := IntType.holds_of_promote hp (s.holds_toInt x) (t.holds_toInt y)
    have hresult : op.eval (.int s x) (.int t y) = op.evalInt p (s.toInt x) (t.toInt y) := by
      rw [heval, evalNumeric, hp]
    rw [hresult]
    refine ⟨op.exact_evalInt hx hy, ?_⟩
    rw [← s.toInt_extend x] at hx ⊢
    rw [← t.toInt_extend y]
    exact op.evalWide_eq hx
  · rw [heval, evalNumeric, hnone]

/-- The square of the greatest `u64` is more than a register holds, and yet it comes out right. -/
theorem exact_on_integers_square :
    let x : BitVec IntType.u64.width := BitVec.allOnes 64
    2 ^ 127 ≤ IntType.u64.toInt x * IntType.u64.toInt x ∧
      IntType.u64.Congruent (IntType.u64.toInt x * IntType.u64.toInt x)
        (mul.eval (.int .u64 x) (.int .u64 x)) ∧
      mul.evalWide .u64 (IntType.u64.extend x) (IntType.u64.extend x) =
        some (mul.eval (.int .u64 x) (.int .u64 x)) := by
  intro x
  have hlarge : 2 ^ 127 ≤ IntType.u64.toInt x * IntType.u64.toInt x := by decide
  exact ⟨hlarge, (mul.exact_on_integers .u64 .u64 x x).1 .u64 rfl⟩

end BinaryOp

end Contracts
