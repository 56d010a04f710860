import Contracts.Proofs.Acceptance
import Contracts.Proofs.DynamicConversion
import Contracts.Proofs.IntegerArithmetic

set_option autoImplicit false

/-! # Casts between integer types

A cast between integer types keeps the low bits, so what it gives is known by the integer alone: it
is the one value of the target type that agrees with the integer up to a multiple of what the width
holds (`IntType.Represents`), which is the integer itself wherever that fits. Everything else
follows from there: a cast by way of another type that is not narrower than the target is the direct
one, and widening is the cast that loses nothing. Main statement: `Value.casts_coherent`. -/

-- Powers are those of the core library, whatever else is imported.
attribute [local instance (high)] instPowNat

namespace Contracts

namespace IntType

variable {s t u : IntType} {n m : Int}

/-! ## Integers and their low bits -/

/-- The bits, and no others, stand for an integer of the type that agrees with `n` up to a multiple
of what the width holds; if the type holds `n`, that integer is `n`. -/
structure Represents (t : IntType) (n : Int) (bits : BitVec t.width) : Prop where
  congruent : t.toInt bits ≡ n [ZMOD ((2 ^ t.width : Nat) : Int)]
  unique : ∀ other : BitVec t.width,
    t.toInt other ≡ n [ZMOD ((2 ^ t.width : Nat) : Int)] → other = bits
  exact : t.Holds n → t.toInt bits = n

/-- The low bits of integers are the same if these agree up to a multiple of what the width
holds. -/
theorem ofInt_congr {w : Nat} (h : n ≡ m [ZMOD ((2 ^ w : Nat) : Int)]) :
    BitVec.ofInt w n = BitVec.ofInt w m := by
  refine BitVec.eq_of_toNat_eq ?_
  rw [BitVec.toNat_ofInt, BitVec.toNat_ofInt, h]

/-- The integer that bits stand for has these low bits. -/
theorem ofInt_toInt (t : IntType) (bits : BitVec t.width) :
    BitVec.ofInt t.width (t.toInt bits) = bits := by
  unfold toInt
  split
  · exact BitVec.ofInt_toInt
  · rw [BitVec.ofInt_natCast, BitVec.ofNat_toNat, BitVec.setWidth_eq]

theorem represents_ofInt (t : IntType) (n : Int) : t.Represents n (BitVec.ofInt t.width n) where
  congruent := t.toInt_ofInt_modEq n
  unique other h := by rw [← t.ofInt_toInt other, ofInt_congr h]
  exact := toInt_ofInt

/-- On the way through another type the bits above its width get lost, and those below do not
change. -/
theorem wrap_toInt_ofInt (n : Int) (narrower : u.width ≤ t.width) :
    u.wrap (t.toInt (BitVec.ofInt t.width n)) = u.wrap n := by
  have hdvd : ((2 ^ u.width : Nat) : Int) ∣ ((2 ^ t.width : Nat) : Int) :=
    Int.natCast_dvd_natCast.2 (Nat.pow_dvd_pow 2 narrower)
  have hlow : t.toInt (BitVec.ofInt t.width n) ≡ n [ZMOD ((2 ^ u.width : Nat) : Int)] :=
    (t.toInt_ofInt_modEq n).of_dvd hdvd
  rw [wrap, wrap, ofInt_congr hlow]

end IntType

namespace Value

open IntType

variable {s t u : IntType} {a b : Builtin}

/-! ## Values from integers -/

/-- An integer is taken exactly or not at all. -/
theorem ofInteger?_eq_some_iff {n : Int} {v : Value} :
    ofInteger? n (.int t) = some v ↔ t.Holds n ∧ v = t.wrap n := by
  simp only [ofInteger?, IntType.ofInt?]
  split <;> simp [*, eq_comm]

theorem toInteger?_wrap {n : Int} (holds : t.Holds n) : (t.wrap n).toInteger? = some n :=
  congrArg some (toInt_ofInt holds)

/-! ## Casts -/

theorem castNumeric?_int (bits : BitVec s.width) :
    castNumeric? (.int s bits) (.int t) = some (t.wrap (s.toInt bits)) := rfl

/-- A cast by way of a type that is not narrower than the target is the direct one. -/
theorem castNumeric?_trans (bits : BitVec s.width) (narrower : u.width ≤ t.width) :
    (castNumeric? (.int s bits) (.int t)).bind (·.castNumeric? (.int u)) =
      castNumeric? (.int s bits) (.int u) := by
  rw [castNumeric?_int, castNumeric?_int, Option.bind_some, wrap, castNumeric?_int,
    wrap_toInt_ofInt _ narrower]

/-! ## Widening -/

/-- Where a type widens to another, the implicit conversion is the explicit one. -/
theorem widen?_eq_castNumeric? {v : Value} (hv : v.builtin? = some a)
    (wider : a.widensTo b = true) : v.widen? b = v.castNumeric? b := by
  cases v with
  | int s bits =>
      obtain rfl : .int s = a := Option.some.inj hv
      cases b with
      | int t => exact ofInteger?_eq_some_iff.2 ⟨(s.holds_toInt bits).widen wider, rfl⟩
      | float | bool | str | object | void => rfl
  | float | void | null | bool | str | object => rfl

/-- A widened integer is the same integer, which a cast would give too, and a cast takes it back. -/
theorem widen?_lossless (bits : BitVec s.width) (wider : s.widensTo t = true) :
    ∃ wide, widen? (.int s bits) (.int t) = some wide ∧
      castNumeric? (.int s bits) (.int t) = some wide ∧
      wide.toInteger? = some (s.toInt bits) ∧ wide.castNumeric? (.int s) = some (.int s bits) := by
  have hholds : t.Holds (s.toInt bits) := (s.holds_toInt bits).widen wider
  refine ⟨t.wrap (s.toInt bits), ofInteger?_eq_some_iff.2 ⟨hholds, rfl⟩,
    castNumeric?_int bits, toInteger?_wrap hholds, ?_⟩
  rw [wrap, castNumeric?_int, toInt_ofInt hholds, wrap, s.ofInt_toInt]

end Value

/-- Where a type widens to another, both primitive conversions between them are listed, and they
give the same value. -/
theorem Primitive.conversions_agree {a b : Builtin} (wider : a.widensTo b = true) {v : Value}
    (hv : v.builtin? = some a) (right : Option Value) :
    ∃ explicit implicit result,
      findConversion? .explicit (.builtin a) (.builtin b) = some explicit ∧
        findConversion? .implicit (.builtin a) (.builtin b) = some implicit ∧
        explicit.eval v right = .ok result ∧ implicit.eval v right = .ok result := by
  obtain ⟨ha, hb⟩ := Builtin.isNumeric_of_widensTo wider
  have hne : a ≠ b := by
    rintro rfl
    rw [Builtin.widensTo_self] at wider
    exact absurd wider (by decide)
  obtain ⟨result, hwiden, -⟩ := Value.widen_total hv wider
  have hcast : v.castNumeric? b = some result := Value.widen?_eq_castNumeric? hv wider ▸ hwiden
  refine ⟨_, _, result, findConversion?_of_mem (explicit_mem_all_iff.2 ⟨ha, hb, hne⟩),
    findConversion?_of_mem (implicit_mem_all_iff.2 ⟨ha, hb, wider⟩), ?_, ?_⟩
  · simp only [eval, hcast]
  · simp only [eval, hwiden]

namespace Value

open IntType

/-- **Integer casts are modular and coherent.** A cast gives the one value of the target type that
agrees with the integer up to a multiple of what the width holds. An integer makes a value of a type
if and only if the type holds it; the value is then that of the integer's low bits, and the integer
can be read back. A cast by way of a type that is not narrower than the target is the direct one. If
a type widens to another, widening succeeds, does what the cast does, keeps the integer, and can be
undone by a cast; and of any two types one of which widens to the other, `char` and floats included,
the two primitive conversions give the same value. -/
theorem casts_coherent (s t u : IntType) (bits : BitVec s.width) :
    (∃ result, castNumeric? (.int s bits) (.int t) = some (.int t result) ∧
        t.Represents (s.toInt bits) result) ∧
      (∀ n : Int, (ofInteger? n (.int t)).isSome = decide (t.Holds n) ∧
        ∀ v, ofInteger? n (.int t) = some v →
          wrapInteger? n (.int t) = some v ∧ v.toInteger? = some n) ∧
      (u.width ≤ t.width →
        (castNumeric? (.int s bits) (.int t)).bind (·.castNumeric? (.int u)) =
          castNumeric? (.int s bits) (.int u)) ∧
      (s.widensTo t = true → ∃ wide, widen? (.int s bits) (.int t) = some wide ∧
        castNumeric? (.int s bits) (.int t) = some wide ∧
        wide.toInteger? = some (s.toInt bits) ∧
        wide.castNumeric? (.int s) = some (.int s bits)) ∧
      ∀ (a b : Builtin) (v : Value) (right : Option Value), a.widensTo b = true →
        v.builtin? = some a → ∃ explicit implicit result,
          Primitive.findConversion? .explicit (.builtin a) (.builtin b) = some explicit ∧
          Primitive.findConversion? .implicit (.builtin a) (.builtin b) = some implicit ∧
          explicit.eval v right = .ok result ∧ implicit.eval v right = .ok result := by
  refine ⟨⟨_, castNumeric?_int bits, t.represents_ofInt _⟩, fun n => ⟨?_, fun v hv => ?_⟩,
    castNumeric?_trans bits, widen?_lossless bits,
    fun a b v right wider hv => Primitive.conversions_agree wider hv right⟩
  · simp only [ofInteger?, IntType.ofInt?]
    split <;> simp [*]
  · obtain ⟨holds, rfl⟩ := ofInteger?_eq_some_iff.1 hv
    exact ⟨rfl, toInteger?_wrap holds⟩

/-- The least `i32`, by way of `i64`, to `char`: the low sixteen bits of it are zeros. It widens to
`i64` and back. -/
theorem casts_coherent_least :
    let least : Value := .int .i32 (BitVec.intMin 32)
    (least.castNumeric? (.int .i64)).bind (·.castNumeric? (.int .char)) = some (.int .char 0) ∧
      (∃ wide, least.widen? (.int .i64) = some wide ∧ wide.toInteger? = some (-2 ^ 31) ∧
        wide.castNumeric? (.int .i32) = some least) ∧
      ∃ implicit result,
        Primitive.findConversion? .implicit (.builtin (.int .i32)) (.builtin (.int .i64)) =
          some implicit ∧
        implicit.eval least none = .ok result := by
  intro least
  obtain ⟨-, -, hvia, hwiden, hagree⟩ := casts_coherent .i32 .i64 .char (BitVec.intMin 32)
  obtain ⟨wide, hwide, -, hsame, hback⟩ := hwiden (by decide)
  obtain ⟨-, implicit, result, -, hfind, -, heval⟩ :=
    hagree (.int .i32) (.int .i64) least none (by decide) rfl
  refine ⟨(hvia (by decide)).trans (by decide), ⟨wide, hwide, hsame.trans (by decide), hback⟩,
    implicit, result, hfind, heval⟩

end Value

end Contracts
