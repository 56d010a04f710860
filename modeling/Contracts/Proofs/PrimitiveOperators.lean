import Contracts.Proofs.ExactDeclaration
import Contracts.Proofs.OperandSides

set_option autoImplicit false

/-! # Primitive operators

A type without an operator of its own is bound to the first primitive one that fits. Since the
numeric types are listed so that none comes after one that it widens to
(`Builtin.numeric_ordered`), the operator on exactly the two operand types is the first
(`Primitive.findOperator?_exact`): neither operand is coerced, and an adapter gives what evaluating
the two values gives (`Provider.calls_primitive`). -/

namespace Contracts

/-! ## Assignability of numbers -/

/-- A number is assignable to the numbers of the same type and of wider ones. -/
theorem Registry.isAssignable_numeric (r : Registry) {a b : Builtin} (ha : a.isNumeric = true)
    (hb : b.isNumeric = true) :
    r.isAssignable (.builtin a) (.builtin b) = (decide (a = b) || a.widensTo b) := by
  by_cases hab : a = b
  · subst hab
    simp [isAssignable]
  · cases a <;> cases b <;> simp_all [isAssignable, Builtin.isNumeric]

/-- Assignable types have a coercion. -/
theorem Registry.exists_coercion?_of_isAssignable {r : Registry} {source target : TypeRef}
    (h : r.isAssignable source target = true) : ∃ c, r.coercion? source target = some c := by
  have hkeeping : ∃ c, r.keepingCoercion? source target = some c := by
    unfold keepingCoercion?
    rw [h]
    split
    · contradiction
    · split <;> exact ⟨_, rfl⟩
  unfold coercion?
  split
  · exact ⟨_, rfl⟩
  · split
    · exact ⟨_, rfl⟩
    · split
      · exact ⟨_, rfl⟩
      · exact hkeeping
    · exact hkeeping

/-- A result that is something is coerced as any value is. -/
theorem Registry.resultCoercion?_of_isAssignable {r : Registry} {b : Builtin} {target : TypeRef}
    (hb : b ≠ .void) (h : r.isAssignable (.builtin b) target = true) :
    r.resultCoercion? (.builtin b) target = r.coercion? (.builtin b) target := by
  have hsource : (TypeRef.builtin b).isVoid = false := by simp [TypeRef.isVoid, hb]
  have htarget : target.isVoid = false := by
    refine decide_eq_false ?_
    rintro rfl
    cases b <;> simp_all [isAssignable]
  rw [resultCoercion?, hsource, htarget]
  simp

namespace Builtin

/-- In the list of numeric types, no type comes after one that it widens to. -/
theorem numeric_ordered : numeric.Pairwise fun a b => a ≠ b ∧ b.widensTo a = false := by
  decide

theorem mem_numeric_iff {b : Builtin} : b ∈ numeric ↔ b.isNumeric = true := by
  cases b with
  | int t => cases t <;> decide
  | float t => cases t <;> decide
  | bool | str | object | void => decide

/-- Only numbers meet. -/
theorem isNumeric_of_promote {a b met : Builtin} (h : a.promote b = some met) :
    a.isNumeric = true ∧ b.isNumeric = true := by
  cases a <;> cases b <;> simp_all [promote, isNumeric]

/-- Numbers meet in a number. -/
theorem isNumeric_promoted {a b met : Builtin} (h : a.promote b = some met) :
    met.isNumeric = true := by
  unfold promote at h
  split at h
  · obtain ⟨t, -, rfl⟩ := Option.map_eq_some_iff.1 h
    rfl
  all_goals
    cases h <;> rfl

/-- Before a numeric type there is none that it is assignable to. -/
theorem exists_numeric_split (r : Registry) {b : Builtin} (h : b.isNumeric = true) :
    ∃ before after, numeric = before ++ b :: after ∧
      ∀ x ∈ before, r.isAssignable (.builtin b) (.builtin x) = false := by
  obtain ⟨before, after, hsplit⟩ := List.append_of_mem (mem_numeric_iff.2 h)
  refine ⟨before, after, hsplit, fun x hx => ?_⟩
  have hordered := numeric_ordered
  rw [hsplit] at hordered
  obtain ⟨hne, hnarrow⟩ := (List.pairwise_append.1 hordered).2.2 x hx b List.mem_cons_self
  have hx : x.isNumeric = true := by
    rw [← mem_numeric_iff, hsplit]
    exact List.mem_append_left _ hx
  rw [r.isAssignable_numeric h hx, hnarrow, Bool.or_false]
  exact decide_eq_false (Ne.symm hne)

end Builtin

/-- The type of the result of an operator on numbers that meet in a type. -/
def BinaryOp.naturalResult (op : BinaryOp) (met : Builtin) : Builtin :=
  if op.isComparison then .bool else met

/-- A natural result is a truth value or a number. -/
theorem BinaryOp.naturalResult_ne {op : BinaryOp} {l m met b : Builtin}
    (hmeet : l.promote m = some met) (hbool : b ≠ .bool) (hb : b.isNumeric = false) :
    op.naturalResult met ≠ b := by
  unfold naturalResult
  split
  · exact hbool.symm
  · rintro rfl
    exact Bool.false_ne_true (hb.symm.trans (Builtin.isNumeric_promoted hmeet))

theorem BinaryOp.naturalResult_ne_void {op : BinaryOp} {l m met : Builtin}
    (hmeet : l.promote m = some met) : op.naturalResult met ≠ .void :=
  naturalResult_ne hmeet (by simp) rfl

/-- What only one element gives is what is found. -/
theorem findSome?_of_only {α β : Type} {xs : List α} {f : α → Option β} {a : α} {b : β}
    (ha : a ∈ xs) (hf : f a = some b) (only : ∀ x, x ≠ a → f x = none) :
    xs.findSome? f = some b := by
  induction xs with
  | nil => exact absurd ha List.not_mem_nil
  | cons x xs ih =>
      rw [List.findSome?_cons]
      by_cases hx : x = a
      · rw [hx, hf]
      · rw [only x hx]
        exact ih ((List.mem_cons.1 ha).resolve_left (Ne.symm hx))

namespace Primitive

/-! ## Finding an operator -/

/-- The numeric operator of a symbol on two operand types, if there is one. -/
def numericOperator? (op : BinaryOp) (left right : Builtin) : Option Primitive :=
  match left.promote right with
  | none => none
  | some p =>
      if op.isBitwise && p.isFloat then none
      else some (.operator op left right (op.naturalResult p))

theorem numericOperator?_eq_some_iff {op : BinaryOp} {left right : Builtin} {p : Primitive} :
    numericOperator? op left right = some p ↔ ∃ met, left.promote right = some met ∧
      (op.isBitwise && met.isFloat) = false ∧
        p = .operator op left right (op.naturalResult met) := by
  unfold numericOperator?
  cases left.promote right with
  | none => simp
  | some met =>
      simp only [Option.some.injEq, exists_eq_left']
      cases op.isBitwise && met.isFloat with
      | false => simp [eq_comm]
      | true => simp

/-- The numeric operators of a symbol with a left operand of the type, in order. -/
def row (op : BinaryOp) (left : Builtin) : List Primitive :=
  Builtin.numeric.filterMap (numericOperator? op left)

theorem numericOperators_eq :
    numericOperators = BinaryOp.all.flatMap fun op => Builtin.numeric.flatMap (row op) := rfl

theorem exists_of_mem_row {op : BinaryOp} {left : Builtin} {p : Primitive} (h : p ∈ row op left) :
    ∃ right result, p = .operator op left right result := by
  obtain ⟨right, -, hp⟩ := List.mem_filterMap.1 h
  obtain ⟨met, -, -, rfl⟩ := numericOperator?_eq_some_iff.1 hp
  exact ⟨right, _, rfl⟩

variable (r : Registry)

/-- The operator of the symbol takes the operands and gives a result assignable to the wanted
type. -/
def fits (op : BinaryOp) (left right result : TypeRef) : Primitive → Bool
  | .conversion _ _ _ => false
  | .operator o l m n =>
      o = op && r.isAssignable left (.builtin l) && r.isAssignable right (.builtin m) &&
        r.isAssignable (.builtin n) result

variable {r} {op : BinaryOp} {left right : Builtin} {result : TypeRef} {p : Primitive}

theorem find?_conversions (left right result : TypeRef) :
    conversions.find? (fits r op left right result) = none := by
  refine List.find?_eq_none.2 fun p hp => ?_
  rcases List.mem_append.1 hp with hp | hp <;>
    (obtain ⟨source, -, hp⟩ := List.mem_flatMap.1 hp
     obtain ⟨target, -, rfl⟩ := List.mem_map.1 hp
     simp [fits])

/-- The first operator that fits two numbers is in the row of the left one, if any is there. -/
theorem findOperator?_of_row (hleft : left.isNumeric = true)
    (h : (row op left).find? (fits r op (.builtin left) (.builtin right) result) = some p) :
    findOperator? r op (.builtin left) (.builtin right) result = some p := by
  -- Rows of other symbols hold nothing that fits, nor do earlier rows of the symbol.
  have hsymbol : ∀ o, o ≠ op → ∀ l,
      (row o l).find? (fits r op (.builtin left) (.builtin right) result) = none := by
    intro o ho l
    refine List.find?_eq_none.2 fun q hq => ?_
    obtain ⟨m, n, rfl⟩ := exists_of_mem_row hq
    simp [fits, ho]
  obtain ⟨before, after, hsplit, hbefore⟩ := Builtin.exists_numeric_split r hleft
  have hrow : (Builtin.numeric.flatMap (row op)).find?
      (fits r op (.builtin left) (.builtin right) result) = some p := by
    rw [List.find?_flatMap, hsplit, List.findSome?_append, List.findSome?_cons, h]
    have hnone : before.findSome? (fun l =>
        (row op l).find? (fits r op (.builtin left) (.builtin right) result)) = none := by
      refine List.findSome?_eq_none_iff.2 fun l hl => List.find?_eq_none.2 fun q hq => ?_
      obtain ⟨m, n, rfl⟩ := exists_of_mem_row hq
      simp [fits, hbefore l hl]
    rw [hnone]
    rfl
  have hnumeric : numericOperators.find?
      (fits r op (.builtin left) (.builtin right) result) = some p := by
    rw [numericOperators_eq, List.find?_flatMap]
    refine findSome?_of_only (BinaryOp.mem_all op) hrow fun o ho => ?_
    rw [List.find?_flatMap]
    exact List.findSome?_eq_none_iff.2 fun l _ => hsymbol o ho l
  have hfind : all.find? (fits r op (.builtin left) (.builtin right) result) = some p := by
    rw [all, List.find?_append, List.find?_append, List.find?_append, find?_conversions, hnumeric]
    rfl
  exact hfind

/-- In a row the first right operand that fits is found, if the operands meet. -/
theorem find?_row {before after : List Builtin} {met : Builtin}
    (hsplit : Builtin.numeric = before ++ right :: after) (hmeet : left.promote right = some met)
    (hfloat : (op.isBitwise && met.isFloat) = false) {source : TypeRef}
    (hbefore : ∀ x ∈ before, (left.promote x).isSome = true →
      r.isAssignable source (.builtin x) = false)
    (hfits : fits r op (.builtin left) source result
      (.operator op left right (op.naturalResult met)) = true) :
    (row op left).find? (fits r op (.builtin left) source result) =
      some (.operator op left right (op.naturalResult met)) := by
  have hnone : (before.filterMap (numericOperator? op left)).find?
      (fits r op (.builtin left) source result) = none := by
    refine List.find?_eq_none.2 fun q hq => ?_
    obtain ⟨x, hx, hq⟩ := List.mem_filterMap.1 hq
    obtain ⟨p, hpromote, -, rfl⟩ := numericOperator?_eq_some_iff.1 hq
    simp [fits, hbefore x hx (by rw [hpromote]; rfl)]
  have hentry := numericOperator?_eq_some_iff.2 ⟨met, hmeet, hfloat, rfl⟩
  rw [row, hsplit, List.filterMap_append, List.find?_append, hnone,
    List.filterMap_cons_some hentry, List.find?_cons_of_pos hfits]
  rfl

/-- **The first operator that fits two numbers is the exact one.** If the operands meet and the
natural result is assignable to the wanted one, no wider operand types come before their own. -/
theorem findOperator?_exact {met : Builtin} (hmeet : left.promote right = some met)
    (hfloat : (op.isBitwise && met.isFloat) = false)
    (hresult : r.isAssignable (.builtin (op.naturalResult met)) result = true) :
    findOperator? r op (.builtin left) (.builtin right) result =
      some (.operator op left right (op.naturalResult met)) := by
  obtain ⟨hleft, hright⟩ := Builtin.isNumeric_of_promote hmeet
  obtain ⟨before, after, hsplit, hbefore⟩ := Builtin.exists_numeric_split r hright
  refine findOperator?_of_row hleft (find?_row hsplit hmeet hfloat (fun x hx _ => hbefore x hx) ?_)
  simp [fits, Registry.isAssignable_self, hresult]

end Primitive

/-! ## Binding a primitive operator -/

theorem Eval.ofExcept_bind {α β : Type} (a : Except EvalError α) (f : α → Except EvalError β) :
    Eval.ofExcept (a >>= f) = Eval.ofExcept a >>= fun b => Eval.ofExcept (f b) := by
  cases a <;> rfl

/-- A primitive operator is evaluated on the coerced operands. -/
theorem Binding.run_primitive {b : Binding} {p : Primitive} {arg : Coercion} {name : String}
    {v v' x x' : Value} (target : b.target = .primitive p) (args : b.args = [arg])
    (hv : v ≠ .null) (hreceiver : b.receiver.apply v = .ok v') (harg : arg.apply x = .ok x') :
    b.run name (some v) [x] = Eval.ofExcept
      (p.eval (b.operation.side.arrange v' x').1 (some (b.operation.side.arrange v' x').2) >>=
        b.ret.apply) := by
  simp [Binding.run, target, args, coercedArg, requireInstance_of_ne_null hv, Eval.ofExcept_ok,
    hreceiver, harg, Eval.ofExcept_bind]

namespace Registry

variable {r : Registry} {config : Config} {op : Operation} {symbol : BinaryOp} {side : Side}
  {this other : Builtin} {ret : TypeRef}

/-- A built-in type that declares no operator of the symbol gets the primitive one. -/
theorem resolve_of_undeclared (primitives : config.usePrimitives = true)
    (asks : op.AsksFor symbol side (.builtin other) ret)
    (undeclared : r.operators (.builtin this) (some symbol) = []) :
    r.resolve config (.builtin this) op =
      r.primitiveOperator? op symbol side (.builtin this) (.builtin other) := by
  have hdeclared : r.resolveDeclared op symbol side (.builtin this) (.builtin other)
      (.builtin this) = none := by
    rw [resolveDeclared, undeclared]
    rfl
  simp only [resolve, asks.kind, resolveOperator_eq, asks.params, List.head?_cons,
    Option.bind_some, operatorOwners, ImplType.toRef, List.findSome?_cons, hdeclared,
    List.findSome?_nil, Option.none_or, if_pos primitives]

/-- The operands of a primitive operator that is found have coercions, as does its result. -/
theorem primitiveOperator?_of_findOperator? {l m n : Builtin} {receiver arg c : Coercion}
    (asks : op.AsksFor symbol side (.builtin other) ret)
    (found : Primitive.findOperator? r symbol (.builtin (side.arrange this other).1)
      (.builtin (side.arrange this other).2) ret = some (.operator symbol l m n))
    (hreceiver : r.coercion? (.builtin this) (.builtin (side.arrange l m).1) = some receiver)
    (harg : r.coercion? (.builtin other) (.builtin (side.arrange l m).2) = some arg)
    (hret : r.resultCoercion? (.builtin n) ret = some c) :
    r.primitiveOperator? op symbol side (.builtin this) (.builtin other) =
      some { operation := op, target := .primitive (.operator symbol l m n), receiver,
             args := [arg], ret := c } := by
  cases side <;>
    simp_all [primitiveOperator?, Side.arrange, asks.ret, Primitive.right?, Primitive.left,
      Primitive.result, bindOperator?, operandCoercions?]

/-- Operands that meet are bound to the operator on exactly their types, as they are. -/
theorem resolve_of_promote {left right met : Builtin} (primitives : config.usePrimitives = true)
    (asks : op.AsksFor symbol side (.builtin other) ret)
    (undeclared : r.operators (.builtin this) (some symbol) = [])
    (harrange : side.arrange this other = (left, right))
    (hmeet : left.promote right = some met) (hfloat : (symbol.isBitwise && met.isFloat) = false)
    (hresult : r.isAssignable (.builtin (symbol.naturalResult met)) ret = true) :
    ∃ c, r.coercion? (.builtin (symbol.naturalResult met)) ret = some c ∧
      r.resolve config (.builtin this) op = some
        { operation := op, target := .primitive (.operator symbol left right
            (symbol.naturalResult met)), args := [.identity], ret := c } := by
  obtain ⟨c, hc⟩ := exists_coercion?_of_isAssignable hresult
  have hret := resultCoercion?_of_isAssignable (BinaryOp.naturalResult_ne_void hmeet) hresult
  refine ⟨c, hc, ?_⟩
  rw [resolve_of_undeclared primitives asks undeclared]
  refine primitiveOperator?_of_findOperator? asks ?_ ?_ ?_ (hret.trans hc)
  · rw [harrange]
    exact Primitive.findOperator?_exact hmeet hfloat hresult
  · cases side <;> (cases harrange; exact coercion?_self _)
  · cases side <;> (cases harrange; exact coercion?_self _)

/-- The contract asks for the operation and for nothing else. -/
def Requires (r : Registry) (contract : TypeIdx) (op : Operation) : Prop :=
  ∃ spec, r.extract contract = .ok spec ∧ spec.operations = [op]

/-- A type for which the operation is bound offers it. -/
theorem offers_of_bound {ty : ImplType} {contract : TypeIdx} {b : Binding}
    (requires : r.Requires contract op) (isPublic : r.isPublic ty = true)
    (bound : r.resolve config ty op = some b) (args : List Value) :
    r.Offers config ty contract op args := by
  obtain ⟨spec, hextract, hoperations⟩ := requires
  refine ⟨spec, isPublic, hextract, satisfied_iff.2 fun op' hop' => ?_, [], [], hoperations,
    by simp⟩
  obtain rfl := List.mem_singleton.1 (hoperations ▸ hop')
  rw [bound]
  rfl

/-- A built-in type for which the operation is bound offers it. -/
theorem offers_of_requires {contract : TypeIdx} {b : Binding} (requires : r.Requires contract op)
    (bound : r.resolve config (.builtin this) op = some b) (args : List Value) :
    r.Offers config (.builtin this) contract op args :=
  offers_of_bound requires rfl bound args

end Registry

/-! ## Results of numeric operators -/

/-- A number is an integer or a float. -/
theorem Value.numeric_cases {v : Value} {b : Builtin} (hv : v.builtin? = some b)
    (hb : b.isNumeric = true) : (∃ t bits, v = .int t bits ∧ b = .int t) ∨
      ∃ t x, v = .float t x ∧ b = .float t := by
  cases v with
  | int t bits => exact Or.inl ⟨t, bits, rfl, (Option.some.inj hv).symm⟩
  | float t x => exact Or.inr ⟨t, x, rfl, (Option.some.inj hv).symm⟩
  | null | object => simp [builtin?] at hv
  | void | bool | str =>
      obtain rfl := Option.some.inj hv
      simp [Builtin.isNumeric] at hb

theorem Value.present_of_builtin? {v : Value} {b : Builtin} (h : v.builtin? = some b)
    (hb : b ≠ .void) : v ≠ .null ∧ v ≠ .void := by
  constructor
  · rintro rfl
    simp [builtin?] at h
  · rintro rfl
    exact hb (Option.some.inj h).symm

theorem Value.runtimeType?_of_builtin? {v : Value} {b : Builtin} (h : v.builtin? = some b)
    (hb : b ≠ .void) : v.runtimeType? = some (.builtin b) := by
  cases v <;> simp_all [builtin?, runtimeType?]

/-- The operands stand in the order of their types. -/
theorem Side.builtin?_arrange (side : Side) {v x : Value} {this other : Builtin}
    (hv : v.builtin? = some this) (hx : x.builtin? = some other) :
    (side.arrange v x).1.builtin? = some (side.arrange this other).1 ∧
      (side.arrange v x).2.builtin? = some (side.arrange this other).2 := by
  cases side
  · exact ⟨hv, hx⟩
  · exact ⟨hx, hv⟩

namespace BinaryOp

variable {op : BinaryOp}

theorem builtin?_of_evalInt {t : IntType} {a b : Int} {w : Value} (h : op.evalInt t a b = .ok w) :
    w.builtin? = some (op.naturalResult (.int t)) := by
  cases op <;> simp only [evalInt] at h <;> (repeat' split at h) <;> cases h <;> rfl

theorem builtin?_of_evalFloat {t : FloatType} {a b : BinaryFloat .f64} {w : Value}
    (h : op.evalFloat t a b = .ok w) : w.builtin? = some (op.naturalResult (.float t)) := by
  cases op <;> simp only [evalFloat] at h <;> cases h <;> rfl

/-- Two numbers are evaluated as numbers. -/
theorem eval_numeric {v x : Value} {l m : Builtin} (hv : v.builtin? = some l)
    (hx : x.builtin? = some m) (hl : l.isNumeric = true) (hm : m.isNumeric = true) :
    op.eval v x = op.evalNumeric v x := by
  rcases Value.numeric_cases hv hl with ⟨s, a, rfl, rfl⟩ | ⟨s, a, rfl, rfl⟩ <;>
    rcases Value.numeric_cases hx hm with ⟨t, b, rfl, rfl⟩ | ⟨t, b, rfl, rfl⟩ <;>
    simp [eval, Value.bool?, Value.str?, Value.nullableText?]

/-- A numeric operator gives a value of its natural result. -/
theorem builtin?_of_eval {v x w : Value} {l m met : Builtin} (hv : v.builtin? = some l)
    (hx : x.builtin? = some m) (hmeet : l.promote m = some met) (h : op.eval v x = .ok w) :
    w.builtin? = some (op.naturalResult met) := by
  obtain ⟨hl, hm⟩ := Builtin.isNumeric_of_promote hmeet
  rw [eval_numeric hv hx hl hm] at h
  rcases Value.numeric_cases hv hl with ⟨s, a, rfl, rfl⟩ | ⟨s, a, rfl, rfl⟩ <;>
    rcases Value.numeric_cases hx hm with ⟨t, b, rfl, rfl⟩ | ⟨t, b, rfl, rfl⟩
  · obtain ⟨p, hp, rfl⟩ := Option.map_eq_some_iff.1 hmeet
    rw [evalNumeric, hp] at h
    exact builtin?_of_evalInt h
  all_goals
    obtain rfl := Option.some.inj hmeet
    exact builtin?_of_evalFloat h

end BinaryOp

/-- The result of the operator on an instance and another operand, which stand in the order of the
side. -/
def BinaryOp.evalOn (op : BinaryOp) (side : Side) (self other : Value) : Except EvalError Value :=
  op.eval (side.arrange self other).1 (side.arrange self other).2

namespace Provider

variable {r : Registry} {config : Config} {op : Operation} {symbol : BinaryOp} {side : Side}
  {this other left right met : Builtin} {ret : TypeRef}

/-- A call of what is bound to a primitive operator evaluates the coerced operands. -/
theorem callIs_of_primitive {p : Primitive} {receiver arg c : Coercion} {v v' x x' : Value}
    {s : State} {contract : TypeIdx} (asks : op.AsksFor symbol side (.builtin other) ret)
    (bound : r.resolve config (.builtin this) op = some
      { operation := op, target := .primitive p, receiver, args := [arg], ret := c })
    (hthis : this ≠ .void) (hother : other ≠ .void) (hv : v.builtin? = some this)
    (hx : x.builtin? = some other) (hreceiver : receiver.apply v = .ok v')
    (harg : arg.apply x = .ok x') (reached : Reached r config s)
    (offers : r.Offers config (.builtin this) contract op [x]) :
    CallIs r config s v contract op [x] (Eval.ofExcept
      (p.eval (side.arrange v' x').1 (some (side.arrange v' x').2) >>= c.apply)) := by
  have haccepted : List.Forall₂ (fun ty v => r.accepts ty v = true) op.params [x] := by
    rw [asks.params]
    exact .cons (Registry.accepts_runtimeType (Value.runtimeType?_of_builtin? hx hother)) .nil
  have hcall := callIs_of_offers reached (Value.runtimeType?_of_builtin? hv hthis) offers bound
    haccepted
  have hside : op.side = side := by simp [Operation.side, asks.kind]
  rw [Binding.run_primitive rfl rfl (Value.present_of_builtin? hv hthis).1 hreceiver harg,
    hside] at hcall
  exact hcall

/-- **Primitive operators agree with evaluation.** If the operands of an operator are numbers that
meet in a type, and its natural result is assignable to the wanted one, then a type without an
operator of its own satisfies the contract that requires it. It is bound to the primitive operator
on exactly the two types, and calling it evaluates the two values as they are; the result is coerced
to the wanted type, which never fails. -/
theorem calls_primitive (primitives : config.usePrimitives = true)
    (asks : op.AsksFor symbol side (.builtin other) ret)
    (undeclared : r.operators (.builtin this) (some symbol) = [])
    (harrange : side.arrange this other = (left, right))
    (hmeet : left.promote right = some met) (hfloat : (symbol.isBitwise && met.isFloat) = false)
    (hresult : r.isAssignable (.builtin (symbol.naturalResult met)) ret = true) :
    ∃ b c, r.resolve config (.builtin this) op = some b ∧
      b.target = .primitive (.operator symbol left right (symbol.naturalResult met)) ∧
      r.coercion? (.builtin (symbol.naturalResult met)) ret = some c ∧
      (∀ contract, r.Requires contract op →
        (∀ s, Reached r config s → outcome (check r config (.builtin this) contract) s = .ok true) ∧
          ∀ args, r.Offers config (.builtin this) contract op args) ∧
      ∀ v x : Value, v.builtin? = some this → x.builtin? = some other →
        (∀ w, symbol.evalOn side v x = .ok w →
          ∃ w', c.apply w = .ok w' ∧ r.accepts ret w' = true) ∧
        ∀ s contract, Reached r config s → r.Offers config (.builtin this) contract op [x] →
          CallIs r config s v contract op [x]
            (Eval.ofExcept (symbol.evalOn side v x >>= c.apply)) := by
  obtain ⟨hleft, hright⟩ := Builtin.isNumeric_of_promote hmeet
  obtain ⟨hthis, hother⟩ : this ≠ .void ∧ other ≠ .void := by
    cases side <;> (cases harrange; constructor <;> (rintro rfl; contradiction))
  obtain ⟨c, hc, hbound⟩ := Registry.resolve_of_promote primitives asks undeclared harrange hmeet
    hfloat hresult
  refine ⟨_, c, hbound, rfl, hc, fun contract requires => ?_, fun v x hv hx => ⟨?_, ?_⟩⟩
  · have offers := Registry.offers_of_requires requires hbound
    exact ⟨fun s reached => check_of_offers reached (offers []), offers⟩
  · intro w hw
    obtain ⟨hl, hm⟩ := side.builtin?_arrange hv hx
    rw [harrange] at hl hm
    have hnatural := BinaryOp.builtin?_of_eval hl hm hmeet hw
    have hpresent := Value.present_of_builtin? hnatural (BinaryOp.naturalResult_ne_void hmeet)
    obtain ⟨w', happly, hcarried, haccepts⟩ := Registry.accepts_of_coercion hc
      (Registry.accepts_builtin hnatural hpresent.2)
    exact ⟨w', happly, haccepts (hcarried.ne_null hpresent.1)⟩
  · intro s contract reached offers
    exact callIs_of_primitive asks hbound hthis hother hv hx rfl rfl reached offers

/-! ### Taking away from a wider number -/

/-- Take the instance away from a 32-bit integer, with a 64-bit result. -/
def lessOperation : Operation where
  name := "less"
  kind := .operator .sub .right
  params := [.builtin (.int .i32)]
  ret := .builtin (.int .i64)

/-- A contract that requires the operation. -/
def lessRegistry : Registry where
  types := #[⟨"Less", true, .contract { operations := [lessOperation] }⟩]

theorem calls_primitive_less :
    (∃ b, lessRegistry.resolve {} (.builtin (.int .u8)) lessOperation = some b ∧
        b.target = .primitive (.operator .sub (.int .i32) (.int .u8) (.int .i32))) ∧
      outcome (check lessRegistry {} (.builtin (.int .u8)) ⟨0⟩) {} = .ok true ∧
      CallIs lessRegistry {} {} (IntType.u8.wrap 5) ⟨0⟩ lessOperation [IntType.i32.wrap 2]
        (pure (IntType.i64.wrap (-3))) := by
  have asks : lessOperation.AsksFor .sub .right (.builtin (.int .i32)) (.builtin (.int .i64)) :=
    ⟨rfl, rfl, rfl⟩
  have primitives : ({} : Config).usePrimitives = true := rfl
  have undeclared : lessRegistry.operators (.builtin (.int .u8)) (some .sub) = [] := rfl
  obtain ⟨b, c, hbound, htarget, hc, hoffers, hcalls⟩ :=
    calls_primitive primitives asks undeclared rfl rfl rfl rfl
  have requires : lessRegistry.Requires ⟨0⟩ lessOperation := by
    refine ⟨⟨⟨0⟩, "Less", [lessOperation]⟩, ?_, rfl⟩
    rw [Registry.extract, Registry.ancestry_of_parents_eq_nil rfl]
    rfl
  obtain ⟨hcheck, hoffers⟩ := hoffers ⟨0⟩ requires
  obtain ⟨-, hcall⟩ := hcalls (IntType.u8.wrap 5) (IntType.i32.wrap 2) rfl rfl
  obtain rfl : .widen (.int .i32) (.int .i64) = c := Option.some.inj hc
  exact ⟨⟨b, hbound, htarget⟩, hcheck _ (.fresh 1), hcall _ _ (.fresh 1) (hoffers _)⟩

end Provider

end Contracts
