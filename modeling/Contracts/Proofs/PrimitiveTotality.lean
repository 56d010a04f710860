import Contracts.Proofs.PrimitiveOperators

set_option autoImplicit false

/-! # Primitive operations on the values of their types

A primitive operation promises a result for whatever its operand types accept, but values are
combined by what they are. Conversions never fail. An operator gives a value of its result type, or
fails in arithmetic, with one exception (`Primitive.Listed.yields_iff`): where a text is joined with
anything, one of the two operands has to be a text, and `null` in the place of the text is none. -/

namespace Contracts

/-! ## What is listed -/

/-- The primitive operations, without their order. -/
inductive Primitive.Listed : Primitive → Prop
  | explicit {source target : Builtin} (hsource : source.isNumeric = true)
      (htarget : target.isNumeric = true) : Listed (.conversion .explicit source target)
  | implicit {source target : Builtin} (wider : source.widensTo target = true) :
      Listed (.conversion .implicit source target)
  | numeric {op : BinaryOp} {left right met : Builtin} (hmeet : left.promote right = some met)
      (hfloat : (op.isBitwise && met.isFloat) = false) :
      Listed (.operator op left right (op.naturalResult met))
  | truth {op : BinaryOp} (hop : (op.isBitwise || op.isEquality) = true) :
      Listed (.operator op .bool .bool .bool)
  | textEquality {op : BinaryOp} (hop : op.isEquality = true) :
      Listed (.operator op .str .str .bool)
  | append : Listed (.operator .add .str .object .str)
  | prepend : Listed (.operator .add .object .str .str)

theorem Primitive.listed_of_mem_all {p : Primitive} (h : p ∈ all) : p.Listed := by
  simp only [all, List.mem_append] at h
  obtain ((h | h) | h) | h := h
  · rcases List.mem_append.1 h with h | h
    · obtain ⟨source, hsource, h⟩ := List.mem_flatMap.1 h
      obtain ⟨target, htarget, rfl⟩ := List.mem_map.1 h
      exact .explicit (Builtin.mem_numeric_iff.1 hsource)
        (Builtin.mem_numeric_iff.1 (List.mem_filter.1 htarget).1)
    · obtain ⟨source, -, h⟩ := List.mem_flatMap.1 h
      obtain ⟨target, htarget, rfl⟩ := List.mem_map.1 h
      exact .implicit (List.mem_filter.1 htarget).2
  · rw [numericOperators_eq] at h
    obtain ⟨op, -, h⟩ := List.mem_flatMap.1 h
    obtain ⟨left, -, h⟩ := List.mem_flatMap.1 h
    obtain ⟨right, -, h⟩ := List.mem_filterMap.1 h
    obtain ⟨met, hmeet, hfloat, rfl⟩ := numericOperator?_eq_some_iff.1 h
    exact .numeric hmeet hfloat
  · obtain ⟨op, hop, rfl⟩ := List.mem_map.1 h
    have hall : ∀ op ∈ [BinaryOp.bitAnd, .bitOr, .bitXor, .eq, .ne],
        (op.isBitwise || op.isEquality) = true := by decide
    exact .truth (hall op hop)
  · simp only [textOperators, List.mem_cons, List.not_mem_nil, or_false] at h
    obtain rfl | rfl | rfl | rfl := h
    · exact .textEquality rfl
    · exact .textEquality rfl
    · exact .append
    · exact .prepend

/-! ## Conversions -/

/-- Every number can be cast to every numeric type. -/
theorem Value.castNumeric_total {v : Value} {a b : Builtin} (h : v.builtin? = some a)
    (ha : a.isNumeric = true) (hb : b.isNumeric = true) :
    ∃ w, v.castNumeric? b = some w ∧ w.builtin? = some b := by
  rcases Value.numeric_cases h ha with ⟨s, bits, rfl, -⟩ | ⟨s, x, rfl, -⟩ <;> cases b with
  | int t => exact ⟨_, rfl, rfl⟩
  | float t => exact ⟨_, rfl, rfl⟩
  | bool | str | object | void => contradiction

/-! ## Failures of arithmetic -/

/-- Division by zero and results that no value of the type stands for. -/
def EvalError.isArithmetic : EvalError → Bool
  | .divisionByZero | .moduloByZero | .integerOverflow _ => true
  | _ => false

namespace BinaryOp

variable {op : BinaryOp} {e : EvalError}

theorem isArithmetic_of_evalInt {t : IntType} {a b : Int} (h : op.evalInt t a b = .error e) :
    e.isArithmetic = true := by
  cases op <;> simp only [evalInt] at h <;> (repeat' split at h) <;> cases h <;> rfl

theorem evalFloat_ne_error {t : FloatType} {a b : BinaryFloat .f64} (hop : op.isBitwise = false) :
    op.evalFloat t a b ≠ .error e := by
  cases op <;> first | contradiction | (intro h; cases h)

/-- Numbers that meet fail to be combined only in arithmetic. -/
theorem isArithmetic_of_eval {v x : Value} {l m met : Builtin} (hv : v.builtin? = some l)
    (hx : x.builtin? = some m) (hmeet : l.promote m = some met)
    (hfloat : (op.isBitwise && met.isFloat) = false) (h : op.eval v x = .error e) :
    e.isArithmetic = true := by
  obtain ⟨hl, hm⟩ := Builtin.isNumeric_of_promote hmeet
  rw [eval_numeric hv hx hl hm] at h
  rcases Value.numeric_cases hv hl with ⟨s, a, rfl, rfl⟩ | ⟨s, a, rfl, rfl⟩ <;>
    rcases Value.numeric_cases hx hm with ⟨t, b, rfl, rfl⟩ | ⟨t, b, rfl, rfl⟩
  · obtain ⟨p, hp, rfl⟩ := Option.map_eq_some_iff.1 hmeet
    rw [evalNumeric, hp] at h
    exact isArithmetic_of_evalInt h
  all_goals
    obtain rfl := Option.some.inj hmeet
    rw [Builtin.isFloat, Bool.and_true] at hfloat
    exact absurd h (evalFloat_ne_error hfloat)

end BinaryOp

/-! ## Operators -/

/-- The outcome is a value that the type accepts, or a failure of arithmetic. -/
inductive Registry.Yields (r : Registry) (ty : Builtin) : Except EvalError Value → Prop
  | value {w : Value} (accepted : r.accepts (.builtin ty) w = true) : Yields r ty (.ok w)
  | failure {e : EvalError} (arithmetic : e.isArithmetic = true) : Yields r ty (.error e)

namespace Registry

variable {r : Registry} {op : BinaryOp} {v x : Value}

/-- Numbers that meet are combined to their natural result. -/
theorem yields_numeric {l m met : Builtin} (hmeet : l.promote m = some met)
    (hfloat : (op.isBitwise && met.isFloat) = false) (hv : r.accepts (.builtin l) v = true)
    (hx : r.accepts (.builtin m) x = true) : r.Yields (op.naturalResult met) (op.eval v x) := by
  obtain ⟨hl, hm⟩ := Builtin.isNumeric_of_promote hmeet
  have hleft := builtin?_of_accepts_numeric hv hl
  have hright := builtin?_of_accepts_numeric hx hm
  cases h : op.eval v x with
  | error e => exact .failure (BinaryOp.isArithmetic_of_eval hleft hright hmeet hfloat h)
  | ok w =>
      have hresult := BinaryOp.builtin?_of_eval hleft hright hmeet h
      have hpresent := Value.present_of_builtin? hresult (BinaryOp.naturalResult_ne_void hmeet)
      exact .value (accepts_builtin hresult hpresent.2)

theorem yields_truth (hop : (op.isBitwise || op.isEquality) = true)
    (hv : r.accepts .bool v = true) (hx : r.accepts .bool x = true) :
    r.Yields .bool (op.eval v x) := by
  obtain ⟨a, rfl⟩ := exists_bool_of_accepts hv
  obtain ⟨b, rfl⟩ := exists_bool_of_accepts hx
  cases op <;> first | contradiction | exact .value rfl

/-- Texts are compared with each other and with `null`. -/
theorem yields_textEquality (hop : op.isEquality = true) (hv : r.accepts .str v = true)
    (hx : r.accepts .str x = true) : r.Yields .bool (op.eval v x) := by
  have heval : ∃ a b, op.eval v x = op.evalText a b := by
    rcases eq_null_or_str_of_accepts hv with rfl | ⟨a, rfl⟩ <;>
      rcases eq_null_or_str_of_accepts hx with rfl | ⟨b, rfl⟩ <;>
      cases op <;> first | contradiction | exact ⟨_, _, rfl⟩
  obtain ⟨a, b, heval⟩ := heval
  rw [heval]
  cases op <;> first | contradiction | exact .value rfl

/-- A text is joined with anything. -/
theorem yields_join (h : v.str?.isSome = true ∨ x.str?.isSome = true) :
    r.Yields .str (BinaryOp.add.eval v x) := by
  have heval : BinaryOp.add.eval v x = .ok (concat v x) := by
    cases v <;> cases x <;> simp_all [BinaryOp.eval, Value.str?, Value.bool?]
  rw [heval]
  exact .value rfl

/-- Without a text there is nothing to join. -/
theorem not_yields_join (hnull : v = .null ∨ x = .null) (hv : v.str? = none) (hx : x.str? = none) :
    ¬r.Yields .str (BinaryOp.add.eval v x) := by
  have heval : ∃ e : EvalError, BinaryOp.add.eval v x = .error e ∧ e.isArithmetic = false := by
    rcases hnull with rfl | rfl
    · cases x <;> first | contradiction | exact ⟨_, rfl, rfl⟩
    · cases v <;> first | contradiction | exact ⟨_, rfl, rfl⟩
  obtain ⟨e, heval, hother⟩ := heval
  rw [heval]
  rintro (_ | ⟨harithmetic⟩)
  exact Bool.false_ne_true (hother.symm.trans harithmetic)

/-- Joining yields a text if and only if one of the operands is one. -/
theorem yields_join_iff (hnull : r.accepts .str v = true ∨ r.accepts .str x = true) :
    r.Yields .str (BinaryOp.add.eval v x) ↔ v.str?.isSome = true ∨ x.str?.isSome = true := by
  refine ⟨fun hyields => ?_, yields_join⟩
  by_contra hnone
  have hv : v.str? = none := Option.not_isSome_iff_eq_none.1 fun h => hnone (Or.inl h)
  have hx : x.str? = none := Option.not_isSome_iff_eq_none.1 fun h => hnone (Or.inr h)
  have habsent : v = .null ∨ x = .null :=
    hnull.imp (fun h => eq_null_of_accepts_str h hv) fun h => eq_null_of_accepts_str h hx
  exact not_yields_join habsent hv hx hyields

end Registry

namespace Primitive

variable {r : Registry} {p : Primitive} {v x : Value} {right : Option Value} {m : Builtin}

/-- A conversion gives a value of its target type. -/
theorem Listed.exists_converted (h : p.Listed) (conversion : p.right? = none)
    (accepted : r.accepts (.builtin p.left) v = true) :
    ∃ w, p.eval v right = .ok w ∧ w.builtin? = some p.result := by
  cases h with
  | explicit hsource htarget =>
      obtain ⟨w, hw, hresult⟩ := Value.castNumeric_total
        (Registry.builtin?_of_accepts_numeric accepted hsource) hsource htarget
      exact ⟨w, by simp [eval, hw], hresult⟩
  | implicit wider =>
      have hsource := (Builtin.isNumeric_of_widensTo wider).1
      obtain ⟨w, hw, hresult⟩ :=
        Value.widen_total (Registry.builtin?_of_accepts_numeric accepted hsource) wider
      exact ⟨w, by simp [eval, hw], hresult⟩
  | numeric | truth | textEquality | append | prepend => simp [right?] at conversion

/-- An operator yields its result type, unless it joins what is no text. -/
theorem Listed.yields_iff (h : p.Listed) (operator : p.right? = some m)
    (hv : r.accepts (.builtin p.left) v = true) (hx : r.accepts (.builtin m) x = true) :
    r.Yields p.result (p.eval v (some x)) ↔
      (p.result = .str → v.str?.isSome = true ∨ x.str?.isSome = true) := by
  cases h with
  | explicit | implicit => simp [right?] at operator
  | numeric hmeet hfloat =>
      obtain rfl := Option.some.inj operator
      refine iff_of_true (Registry.yields_numeric hmeet hfloat hv hx) fun hresult => ?_
      exact absurd hresult (BinaryOp.naturalResult_ne hmeet (by simp) rfl)
  | truth hop =>
      obtain rfl := Option.some.inj operator
      exact iff_of_true (Registry.yields_truth hop hv hx) (by simp [result])
  | textEquality hop =>
      obtain rfl := Option.some.inj operator
      exact iff_of_true (Registry.yields_textEquality hop hv hx) (by simp [result])
  | append => exact (Registry.yields_join_iff (Or.inl hv)).trans ⟨fun h _ => h, fun h => h rfl⟩
  | prepend =>
      obtain rfl := Option.some.inj operator
      exact (Registry.yields_join_iff (Or.inr hx)).trans ⟨fun h _ => h, fun h => h rfl⟩

/-- **Primitive operations are total, but for joining `null`.** On what its operand types accept, a
listed conversion always gives a value of its target type, and a listed operator gives a value that
its result type accepts or fails in arithmetic. The exception are the operators that join texts,
which do so if and only if one of the operands is a text. -/
theorem total_of_mem_all (listed : p ∈ all) (hv : r.accepts (.builtin p.left) v = true) :
    (p.right? = none → ∀ right, ∃ w, p.eval v right = .ok w ∧ w.builtin? = some p.result) ∧
      ∀ m, p.right? = some m → ∀ x, r.accepts (.builtin m) x = true →
        (r.Yields p.result (p.eval v (some x)) ↔
          (p.result = .str → v.str?.isSome = true ∨ x.str?.isSome = true)) := by
  have hlisted := listed_of_mem_all listed
  refine ⟨fun conversion right => ?_, fun m operator x hx => ?_⟩
  · exact hlisted.exists_converted conversion hv
  · exact hlisted.yields_iff operator hv hx

theorem total_of_mem_all_join :
    (Primitive.operator .add .str .object .str ∈ all ∧
        Registry.accepts {} .str .null = true ∧ Registry.accepts {} .object (.str "x") = true) ∧
      Registry.Yields {} .str (BinaryOp.add.eval .null (.str "x")) := by
  have listed : Primitive.operator .add .str .object .str ∈ all :=
    List.mem_append_right _ (by decide)
  have hnull : Registry.accepts {} .str .null = true := rfl
  have htext : Registry.accepts {} .object (.str "x") = true := rfl
  exact ⟨⟨listed, hnull, htext⟩,
    ((total_of_mem_all listed hnull).2 .object rfl (.str "x") htext).2 fun _ => Or.inr rfl⟩

/-- A text type accepts `null`, and `object` accepts a number, but the two are not joined. -/
theorem not_total_join :
    Primitive.operator .add .str .object .str ∈ all ∧ Registry.accepts {} .str .null = true ∧
      Registry.accepts {} .object (IntType.i32.wrap 5) = true ∧
      (Primitive.operator .add .str .object .str).eval .null (some (IntType.i32.wrap 5)) =
        .error (.binaryTypeMismatch "null" "i32") ∧
      ¬Registry.Yields {} .str
        ((Primitive.operator .add .str .object .str).eval .null (some (IntType.i32.wrap 5))) := by
  have hrefused : ¬Registry.Yields {} .str (BinaryOp.add.eval .null (IntType.i32.wrap 5)) :=
    Registry.not_yields_join (Or.inl rfl) rfl rfl
  exact ⟨List.mem_append_right _ (by decide), rfl, rfl, rfl, hrefused⟩

end Primitive

end Contracts
