import Contracts.Match
import Contracts.Proofs.Reachability

set_option autoImplicit false

/-! # Coercions keep acceptance

A value that is accepted under one type is accepted under another after the coercion between the
two, and the coercion never fails on it (`Registry.accepts_of_coercion`). The exception is `null`,
which an upcast leaves alone also where the other type is a value type. Widening is where a coercion
could fail: `Value.widen_total` says that a number always fits the wider type. -/

namespace Contracts

/-! ## Widening -/

/-- An integer of a type is also held by every type it widens to. -/
theorem IntType.Holds.widen {s t : IntType} {n : Int} (h : s.Holds n)
    (wider : s.widensTo t = true) : t.Holds n := by
  simp only [widensTo, Bool.and_eq_true, decide_eq_true_eq] at wider
  obtain ⟨⟨-, hmin⟩, hmax⟩ := wider
  exact ⟨Int.le_trans hmin h.1, Int.le_trans h.2 hmax⟩

/-- A value of a built-in type widens to a value of the wider type. -/
theorem Value.widen_total {v : Value} {a b : Builtin} (h : v.builtin? = some a)
    (wider : a.widensTo b = true) : ∃ w, v.widen? b = some w ∧ w.builtin? = some b := by
  cases v with
  | int s bits =>
      obtain rfl : .int s = a := Option.some.inj h
      cases b with
      | int t =>
          have holds : t.Holds (s.toInt bits) := (s.holds_toInt bits).widen wider
          exact ⟨t.wrap (s.toInt bits), by simp [widen?, ofInteger?, IntType.ofInt?, holds], rfl⟩
      | float t => exact ⟨.float t (.ofInt t (s.toInt bits)), rfl, rfl⟩
      | bool | str | object | void => simp [Builtin.widensTo] at wider
  | float s x =>
      obtain rfl : .float s = a := Option.some.inj h
      cases b with
      | float t => exact ⟨.float t ((x.cast .f64).cast t), rfl, rfl⟩
      | int t => cases s <;> simp [Builtin.widensTo] at wider
      | bool | str | object | void => cases s <;> simp [Builtin.widensTo] at wider
  | void | bool | str =>
      obtain rfl := Option.some.inj h
      simp [Builtin.widensTo] at wider
  | null | object => simp [builtin?] at h

/-- The value is passed on as it is, or as the number that it widens to. -/
def Value.Carried (v w : Value) : Prop := w = v ∨ ∃ b, v.widen? b = some w

/-- Nothing widens to `null`. -/
theorem Value.Carried.ne_null {v w : Value} (h : v.Carried w) (hv : v ≠ .null) : w ≠ .null := by
  rcases h with rfl | ⟨b, hwiden⟩
  · exact hv
  · rintro rfl
    cases v with
    | int t bits =>
        cases b <;> simp [widen?, ofInteger?, IntType.ofInt?, IntType.wrap] at hwiden
    | float t x => cases b <;> simp [widen?, ofFloat?, IntType.wrap] at hwiden
    | void | null | bool | str | object => simp [widen?] at hwiden

/-- Only numbers widen, and only to numbers. -/
theorem Builtin.isNumeric_of_widensTo {a b : Builtin} (h : a.widensTo b = true) :
    a.isNumeric = true ∧ b.isNumeric = true := by
  cases a <;> cases b <;> simp_all [widensTo, isNumeric]

theorem Builtin.widensTo_self (a : Builtin) : a.widensTo a = false := by
  cases a with
  | int t => simp [widensTo, IntType.widensTo]
  | float t => cases t <;> rfl
  | bool | str | object | void => rfl

/-- What is an instance of a type is neither absent nor nothing. -/
theorem Value.present_of_runtimeType? {v : Value} {ty : ImplType} (h : v.runtimeType? = some ty) :
    v ≠ .null ∧ v ≠ .void := by
  constructor <;> (rintro rfl; simp [runtimeType?] at h)

namespace Registry

/-! ## What a type accepts -/

/-- A built-in type takes its own values. -/
theorem accepts_builtin {r : Registry} {b : Builtin} {v : Value} (h : v.builtin? = some b)
    (hv : v ≠ .void) : r.accepts (.builtin b) v = true := by
  cases v <;> simp_all [accepts, Value.builtin?] <;> cases b <;> simp_all

/-- A built-in type other than `object` takes nothing but its own values and `null`. -/
theorem builtin?_of_accepts {r : Registry} {b : Builtin} {v : Value}
    (h : r.accepts (.builtin b) v = true) (hb : b ≠ .object) (hv : v ≠ .null) :
    v.builtin? = some b := by
  cases v <;> cases b <;> simp_all [accepts, Value.builtin?]

/-- A number is never absent. -/
theorem ne_null_of_accepts_numeric {r : Registry} {b : Builtin} {v : Value}
    (h : r.accepts (.builtin b) v = true) (hb : b.isNumeric = true) : v ≠ .null := by
  rintro rfl
  cases b <;> simp_all [accepts, isValueType, Builtin.isValueType, Builtin.isNumeric]

/-- A numeric type takes nothing but its own values. -/
theorem builtin?_of_accepts_numeric {r : Registry} {b : Builtin} {v : Value}
    (h : r.accepts (.builtin b) v = true) (hb : b.isNumeric = true) : v.builtin? = some b := by
  refine builtin?_of_accepts h ?_ (ne_null_of_accepts_numeric h hb)
  rintro rfl
  contradiction

/-- The type of texts takes texts and `null`. -/
theorem eq_null_or_str_of_accepts {r : Registry} {v : Value} (h : r.accepts .str v = true) :
    v = .null ∨ ∃ text, v = .str text := by
  cases v with
  | null => exact Or.inl rfl
  | str text => exact Or.inr ⟨text, rfl⟩
  | void | bool | int | float | object => contradiction

theorem eq_null_of_accepts_str {r : Registry} {v : Value} (h : r.accepts .str v = true)
    (hv : v.str? = none) : v = .null := by
  rcases eq_null_or_str_of_accepts h with hnull | ⟨text, rfl⟩
  · exact hnull
  · contradiction

/-- The type of truth values takes nothing else. -/
theorem exists_bool_of_accepts {r : Registry} {v : Value} (h : r.accepts .bool v = true) :
    ∃ b, v = .bool b := by
  cases v with
  | bool b => exact ⟨b, rfl⟩
  | void | null | int | float | str | object => contradiction

/-- A declared type takes the objects whose type is assignable to it, and perhaps `null`. -/
theorem accepts_named_iff {r : Registry} {idx : TypeIdx} {v : Value} (hv : v ≠ .null) :
    r.accepts (.named idx) v = true ↔
      ∃ ref, v = .object ref ∧ r.isAssignable (.named ref.type) (.named idx) = true := by
  cases v <;> simp_all [accepts]

/-- A value is accepted by the type it is an instance of. -/
theorem accepts_runtimeType {r : Registry} {v : Value} {ty : ImplType}
    (h : v.runtimeType? = some ty) : r.accepts ty.toRef v = true := by
  cases v with
  | void | null => simp [Value.runtimeType?] at h
  | object ref =>
      obtain rfl := Option.some.inj h
      simp [accepts, ImplType.toRef, isAssignable_self]
  | bool | int | float | str =>
      obtain rfl := Option.some.inj h
      exact accepts_builtin rfl (by simp)

/-! ## Coercions between accepted values -/

/-- A type assignable to another accepts no values but those the other accepts, `null` apart,
unless the one is a number that widens to the other. -/
theorem accepts_of_isAssignable {r : Registry} {source target : TypeRef} {v : Value}
    (h : r.isAssignable source target = true)
    (narrow : ∀ a b, source = .builtin a → target = .builtin b → a.widensTo b = false)
    (accepted : r.accepts source v = true) (hv : v ≠ .null) : r.accepts target v = true := by
  by_cases heq : source = target
  · rwa [← heq]
  by_cases hobject : target = .object
  · rw [hobject]
    exact accepts_object (ne_void_of_accepts accepted)
  cases source with
  | param i => simp [isAssignable, heq] at h
  | builtin a =>
      cases target with
      | param j => simp [isAssignable, heq] at h
      | builtin b =>
          -- Without widening, only equal built-in types are left.
          have hab := narrow a b rfl rfl
          cases a <;> cases b <;> simp_all [isAssignable]
      | named b => cases a <;> simp [isAssignable] at h
  | named a =>
      cases target with
      | param j => simp [isAssignable] at h
      | builtin b => cases b <;> simp_all [isAssignable]
      | named b =>
          -- The object's type is assignable to `a`, and `a` to `b`.
          obtain ⟨ref, rfl, href⟩ := (accepts_named_iff hv).1 accepted
          exact (accepts_named_iff hv).2 ⟨ref, rfl, r.isAssignable_named_trans href h⟩

/-- The coercions there are: widening between numbers, and else one that keeps the value, between
generic parameters or along assignability. -/
theorem coercion?_cases {r : Registry} {source target : TypeRef} {c : Coercion}
    (h : r.coercion? source target = some c) :
    (∃ a b, source = .builtin a ∧ target = .builtin b ∧ a.widensTo b = true ∧ c = .widen a b) ∨
      (∀ v, c.apply v = .ok v) ∧
        ((∃ i j, source = .param i ∧ target = .param j) ∨
          r.isAssignable source target = true ∧
            ∀ a b, source = .builtin a → target = .builtin b → a.widensTo b = false) := by
  have hkeeping : ∀ {s t : TypeRef}, r.keepingCoercion? s t = some c →
      r.isAssignable s t = true ∧ ∀ v, c.apply v = .ok v := by
    intro s t hk
    unfold keepingCoercion? at hk
    split at hk
    · exact absurd hk (by simp)
    · rename_i hassign
      refine ⟨by simpa using hassign, ?_⟩
      split at hk <;> (obtain rfl := Option.some.inj hk; intro v; rfl)
  unfold coercion? at h
  split at h
  · rename_i heq
    obtain rfl := Option.some.inj h
    subst heq
    refine Or.inr ⟨fun v => rfl, Or.inr ⟨r.isAssignable_self source, ?_⟩⟩
    rintro a b rfl hb
    obtain rfl := TypeRef.builtin.inj hb
    exact a.widensTo_self
  · split at h
    · obtain rfl := Option.some.inj h
      exact Or.inr ⟨fun v => rfl, Or.inl ⟨_, _, rfl, rfl⟩⟩
    · split at h
      · rename_i a b _ hwide
        exact Or.inl ⟨a, b, rfl, rfl, hwide, (Option.some.inj h).symm⟩
      · rename_i a b _ hnarrow
        refine Or.inr ⟨(hkeeping h).2, Or.inr ⟨(hkeeping h).1, ?_⟩⟩
        intro a' b' ha hb
        obtain rfl := TypeRef.builtin.inj ha
        obtain rfl := TypeRef.builtin.inj hb
        simpa using hnarrow
    · rename_i hno
      refine Or.inr ⟨(hkeeping h).2, Or.inr ⟨(hkeeping h).1, ?_⟩⟩
      intro a b ha hb
      exact absurd hb (hno a b ha)

/-- A coercion succeeds on what its source type accepts, and its target type accepts the outcome
unless that is `null`. -/
theorem accepts_of_coercion {r : Registry} {source target : TypeRef} {c : Coercion} {v : Value}
    (h : r.coercion? source target = some c) (accepted : r.accepts source v = true) :
    ∃ w, c.apply v = .ok w ∧ v.Carried w ∧ (w ≠ .null → r.accepts target w = true) := by
  rcases coercion?_cases h with ⟨a, b, rfl, rfl, wider, rfl⟩ | ⟨hkeep, hcase⟩
  · have hnumeric := Builtin.isNumeric_of_widensTo wider
    obtain ⟨w, hw, hb⟩ :=
      Value.widen_total (builtin?_of_accepts_numeric accepted hnumeric.1) wider
    have hvoid : w ≠ .void := by
      rintro rfl
      obtain rfl := Option.some.inj hb
      simp [Builtin.isNumeric] at hnumeric
    exact ⟨w, by simp [Coercion.apply, hw], Or.inr ⟨b, hw⟩, fun _ => accepts_builtin hb hvoid⟩
  · refine ⟨v, hkeep v, Or.inl rfl, fun hv => ?_⟩
    rcases hcase with ⟨i, j, rfl, rfl⟩ | ⟨hassign, hnarrow⟩
    · exact accepts_param j (ne_void_of_accepts accepted)
    · exact accepts_of_isAssignable hassign hnarrow accepted hv

/-- The same for results, where `void` only ever stands for `void`. -/
theorem accepts_of_resultCoercion {r : Registry} {source target : TypeRef} {c : Coercion}
    {v : Value} (h : r.resultCoercion? source target = some c)
    (accepted : r.accepts source v = true) :
    ∃ w, c.apply v = .ok w ∧ v.Carried w ∧ (w ≠ .null → r.accepts target w = true) := by
  unfold resultCoercion? at h
  split at h
  · split at h
    · rename_i heq
      obtain rfl := Option.some.inj h
      exact ⟨v, rfl, Or.inl rfl, fun _ => heq ▸ accepted⟩
    · exact absurd h (by simp)
  · exact accepts_of_coercion h accepted

end Registry

end Contracts
