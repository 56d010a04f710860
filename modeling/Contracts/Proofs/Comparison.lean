import Contracts.Proofs.FloatOrder
import Contracts.Proofs.PrimitiveOperators

set_option autoImplicit false

/-! # Comparisons of integers

Two integers that meet in a type are compared there, exactly. A `u64` and a signed integer meet in
none, and yet the one has an operator with the other: the right operand is assignable to `f32`, to
which it is rounded (`Primitive.findOperator?_of_promote_eq_none`). The comparison is that of the
two integers (`Provider.compares_integers`) unless both have more bits than an `f32`, and then it
may not be (`Provider.same_of_rounded`). -/

namespace Contracts

/-! ## Evaluating a comparison -/

namespace BinaryOp

variable {op : BinaryOp}

/-- Whether two integers compare as the operator says. -/
def holds (op : BinaryOp) (a b : Int) : Bool :=
  match op with
  | .eq => a == b
  | .ne => a != b
  | .lt => a < b
  | .gt => b < a
  | .le => a ≤ b
  | .ge => b ≤ a
  | _ => false

theorem evalInt_of_isComparison (h : op.isComparison = true) (t : IntType) (a b : Int) :
    op.evalInt t a b = .ok (.bool (op.holds a b)) := by
  cases op with
  | eq | ne | lt | gt | le | ge => rfl
  | add | sub | mul | div | mod | bitAnd | bitOr | bitXor => exact absurd h (by decide)

/-- Floats whose keys are in the order of two integers compare as the integers do. -/
theorem evalFloat_of_isComparison (h : op.isComparison = true) (t : FloatType)
    {x y : BinaryFloat .f64} {k l a b : Int} (hx : x.key? = some k) (hy : y.key? = some l)
    (hlt : k < l ↔ a < b) (hgt : l < k ↔ b < a) :
    op.evalFloat t x y = .ok (.bool (op.holds a b)) := by
  have htest : ∀ test, x.compareWith test y = test k l := by
    intro test
    simp only [BinaryFloat.compareWith, hx, hy]
  have heq : k = l ↔ a = b := by omega
  have hle : k ≤ l ↔ a ≤ b := by omega
  have hge : l ≤ k ↔ b ≤ a := by omega
  cases op with
  | eq | ne | lt | gt | le | ge =>
      simp [evalFloat, BinaryFloat.equal, htest, holds, bne, beq_eq_decide, heq, hlt, hgt, hle, hge]
  | add | sub | mul | div | mod | bitAnd | bitOr | bitXor => exact absurd h (by decide)

theorem isBitwise_of_isComparison (h : op.isComparison = true) : op.isBitwise = false := by
  cases op with
  | bitAnd | bitOr | bitXor => exact absurd h (by decide)
  | add | sub | mul | div | mod | eq | ne | lt | gt | le | ge => rfl

theorem naturalResult_of_isComparison (h : op.isComparison = true) (met : Builtin) :
    op.naturalResult met = .bool := if_pos h

end BinaryOp

/-! ## Operands that do not meet -/

theorem IntType.promote_comm (s t : IntType) : s.promote t = t.promote s := by
  cases s <;> cases t <;> rfl

/-- Of two integer types that do not meet, one is `u64` and the other one is signed. -/
theorem IntType.of_promote_eq_none {s t : IntType} (h : s.promote t = none) :
    s = .u64 ∧ t.isSigned = true ∨ t = .u64 ∧ s.isSigned = true := by
  revert h
  cases s <;> cases t <;> decide

namespace Primitive

/-- The second of two integer types that do not meet fits no integer type that the first one
meets. -/
theorem isAssignable_of_promote (r : Registry) {s t u : IntType} (h : s.promote t = none)
    (hmeet : (s.promote u).isSome = true) :
    r.isAssignable (.builtin (.int t)) (.builtin (.int u)) = false := by
  rw [r.isAssignable_numeric rfl rfl]
  revert hmeet
  rcases IntType.of_promote_eq_none h with ⟨rfl, hsigned⟩ | ⟨rfl, hsigned⟩ <;> revert hsigned
  -- No signed type fits an unsigned one or `char`, and `u64` meets nothing else.
  · cases t <;> cases u <;> decide
  -- No type but `u64` itself holds all of `u64`, and the signed type does not meet it.
  · cases s <;> cases u <;> decide

/-- Integers that do not meet are compared by the operator on the first one's type and `f32`. -/
theorem findOperator?_of_promote_eq_none (r : Registry) {op : BinaryOp} {s t : IntType}
    (comparison : op.isComparison = true) (h : s.promote t = none) :
    findOperator? r op (.builtin (.int s)) (.builtin (.int t)) (.builtin .bool) =
      some (.operator op (.int s) (.float .f32) .bool) := by
  have hsplit : Builtin.numeric =
      ([.char, .i8, .u8, .i16, .u16, .i32, .u32, .i64, .u64].map .int) ++
        .float .f32 :: [.float .f64] := rfl
  have hnatural := BinaryOp.naturalResult_of_isComparison comparison (.float .f32)
  refine findOperator?_of_row rfl ?_
  rw [← hnatural]
  refine find?_row hsplit rfl (by rw [BinaryOp.isBitwise_of_isComparison comparison]; rfl) ?_ ?_
  · intro x hx hmeet
    obtain ⟨u, -, rfl⟩ := List.mem_map.1 hx
    exact isAssignable_of_promote r h (by simpa [Builtin.promote] using hmeet)
  · rw [hnatural]
    have hwidens : r.isAssignable (.builtin (.int t)) (.builtin (.float .f32)) = true :=
      r.isAssignable_numeric rfl rfl
    simp [fits, Registry.isAssignable_self, hwidens]

end Primitive

/-! ## Evaluating operands that do not meet -/

theorem IntType.natAbs_toInt_lt (t : IntType) (bits : BitVec t.width) :
    (t.toInt bits).natAbs < 2 ^ 64 := by
  obtain ⟨low, high⟩ := t.holds_toInt bits
  cases t <;> simp [minValue, maxValue, isSigned, width] at low high <;> omega

theorem IntType.toInt_nonneg {t : IntType} (h : t.isSigned = false) (bits : BitVec t.width) :
    0 ≤ t.toInt bits := by
  simp [toInt, h]

/-- An integer on the left and one rounded to `f32` on the right compare as the two integers do,
unless both have more bits than that. -/
theorem BinaryOp.eval_of_promote_eq_none {op : BinaryOp} {s t : IntType}
    (comparison : op.isComparison = true) (h : s.promote t = none) (bits : BitVec s.width)
    (bits' : BitVec t.width) (small : s.toInt bits < 2 ^ 24 ∨ t.toInt bits' < 2 ^ 24) :
    op.eval (.int s bits) (.float .f32 (.ofInt .f32 (t.toInt bits'))) =
      .ok (.bool (op.holds (s.toInt bits) (t.toInt bits'))) := by
  have sign : 0 ≤ s.toInt bits ∨ 0 ≤ t.toInt bits' := by
    rcases IntType.of_promote_eq_none h with ⟨rfl, -⟩ | ⟨rfl, -⟩
    · exact Or.inl (IntType.toInt_nonneg rfl bits)
    · exact Or.inr (IntType.toInt_nonneg rfl bits')
  obtain ⟨k, l, hk, hl, hlt, hgt⟩ := BinaryFloat.order_of_ofInt (s.natAbs_toInt_lt bits)
    (t.natAbs_toInt_lt bits') sign small
  rw [eval_numeric rfl rfl rfl rfl]
  exact evalFloat_of_isComparison comparison .f32 hk hl hlt hgt

namespace Provider

variable {r : Registry} {config : Config} {op : Operation} {symbol : BinaryOp} {side : Side}
  {this other left right : IntType}

/-- Two integers that do not meet are bound to the operator on the left one's type and `f32`; the
right one is widened. -/
theorem resolve_of_promote_eq_none (primitives : config.usePrimitives = true)
    (comparison : symbol.isComparison = true)
    (asks : op.AsksFor symbol side (.builtin (.int other)) (.builtin .bool))
    (undeclared : r.operators (.builtin (.int this)) (some symbol) = [])
    (harrange : side.arrange this other = (left, right)) (h : left.promote right = none) :
    r.resolve config (.builtin (.int this)) op = some
      { operation := op, target := .primitive (.operator symbol (.int left) (.float .f32) .bool)
        receiver := (side.arrange .identity (.widen (.int this) (.float .f32))).1
        args := [(side.arrange (.widen (.int other) (.float .f32)) .identity).1] } := by
  have hfound := Primitive.findOperator?_of_promote_eq_none r comparison h
  have hself : ∀ t : IntType, r.coercion? (.builtin (.int t)) (.builtin (.int t)) =
      some .identity := fun t => r.coercion?_self _
  have hwiden : ∀ t : IntType, r.coercion? (.builtin (.int t)) (.builtin (.float .f32)) =
      some (.widen (.int t) (.float .f32)) := fun t => rfl
  rw [Registry.resolve_of_undeclared primitives asks undeclared]
  cases side with
  | left =>
      cases harrange
      exact Registry.primitiveOperator?_of_findOperator? asks hfound (hself _) (hwiden _)
        (r.resultCoercion?_self _)
  | right =>
      cases harrange
      exact Registry.primitiveOperator?_of_findOperator? asks hfound (hwiden _) (hself _)
        (r.resultCoercion?_self _)

/-- Two integers that meet are bound to the operator on their types, as they are. -/
theorem resolve_of_promote_eq_some {met : IntType} (primitives : config.usePrimitives = true)
    (comparison : symbol.isComparison = true)
    (asks : op.AsksFor symbol side (.builtin (.int other)) (.builtin .bool))
    (undeclared : r.operators (.builtin (.int this)) (some symbol) = [])
    (harrange : side.arrange this other = (left, right)) (h : left.promote right = some met) :
    r.resolve config (.builtin (.int this)) op = some
      { operation := op, target := .primitive (.operator symbol (.int left) (.int right) .bool)
        args := [.identity] } := by
  have hnatural := BinaryOp.naturalResult_of_isComparison comparison (.int met)
  have hmeet : (Builtin.int left).promote (.int right) = some (.int met) := by
    rw [Builtin.promote, h]
    rfl
  have hresult : r.isAssignable (.builtin (symbol.naturalResult (.int met))) (.builtin .bool) =
      true := by
    rw [hnatural]
    exact r.isAssignable_self _
  have harrange' : side.arrange (Builtin.int this) (.int other) = (.int left, .int right) := by
    cases side <;> (cases harrange; rfl)
  obtain ⟨c, hc, hbound⟩ := Registry.resolve_of_promote primitives asks undeclared harrange'
    hmeet (Bool.and_false _) hresult
  rw [hnatural, Registry.coercion?_self] at hc
  obtain rfl := Option.some.inj hc
  rw [hbound, hnatural]

theorem ofExcept_identity (v : Value) :
    Eval.ofExcept (.ok v >>= Coercion.identity.apply) = pure v := rfl

/-- Two integers that meet are compared as they are. -/
theorem callIs_of_promote {met : IntType} (primitives : config.usePrimitives = true)
    (comparison : symbol.isComparison = true)
    (asks : op.AsksFor symbol side (.builtin (.int other)) (.builtin .bool))
    (undeclared : r.operators (.builtin (.int this)) (some symbol) = [])
    (harrange : side.arrange this other = (left, right)) (h : left.promote right = some met)
    (bits : BitVec this.width) (bits' : BitVec other.width) {s : State} {contract : TypeIdx}
    (reached : Reached r config s)
    (offers : r.Offers config (.builtin (.int this)) contract op [.int other bits']) :
    CallIs r config s (.int this bits) contract op [.int other bits']
      (pure (.bool (symbol.holds (side.arrange (this.toInt bits) (other.toInt bits')).1
        (side.arrange (this.toInt bits) (other.toInt bits')).2))) := by
  have hbound := resolve_of_promote_eq_some primitives comparison asks undeclared harrange h
  have hcall := callIs_of_primitive (v := .int this bits) (x := .int other bits') asks hbound
    (by simp) (by simp) rfl rfl rfl rfl reached offers
  have heval : ∀ (a : BitVec left.width) (b : BitVec right.width),
      symbol.eval (.int left a) (.int right b) =
        .ok (.bool (symbol.holds (left.toInt a) (right.toInt b))) := by
    intro a b
    rw [BinaryOp.eval_numeric rfl rfl rfl rfl, BinaryOp.evalNumeric, h]
    exact BinaryOp.evalInt_of_isComparison comparison met _ _
  cases side <;>
    (cases harrange
     simpa [Primitive.eval, Side.arrange, heval, ofExcept_identity] using hcall)

/-- Two integers that do not meet are compared as they are, unless both have more bits than an
`f32`. -/
theorem callIs_of_promote_eq_none (primitives : config.usePrimitives = true)
    (comparison : symbol.isComparison = true)
    (asks : op.AsksFor symbol side (.builtin (.int other)) (.builtin .bool))
    (undeclared : r.operators (.builtin (.int this)) (some symbol) = [])
    (harrange : side.arrange this other = (left, right)) (h : left.promote right = none)
    (bits : BitVec this.width) (bits' : BitVec other.width)
    (small : this.toInt bits < 2 ^ 24 ∨ other.toInt bits' < 2 ^ 24) {s : State}
    {contract : TypeIdx} (reached : Reached r config s)
    (offers : r.Offers config (.builtin (.int this)) contract op [.int other bits']) :
    CallIs r config s (.int this bits) contract op [.int other bits']
      (pure (.bool (symbol.holds (side.arrange (this.toInt bits) (other.toInt bits')).1
        (side.arrange (this.toInt bits) (other.toInt bits')).2))) := by
  have hbound := resolve_of_promote_eq_none primitives comparison asks undeclared harrange h
  have hwiden : ∀ (t : IntType) (b : BitVec t.width),
      (Coercion.widen (.int t) (.float .f32)).apply (.int t b) =
        .ok (.float .f32 (.ofInt .f32 (t.toInt b))) := fun _ _ => rfl
  have hkeep : ∀ v : Value, Coercion.identity.apply v = .ok v := fun _ => rfl
  cases side with
  | left =>
      cases harrange
      have hcall := callIs_of_primitive asks hbound (by simp) (by simp) rfl rfl
        (hkeep (.int this bits)) (hwiden other bits') reached offers
      have heval := BinaryOp.eval_of_promote_eq_none comparison h bits bits' small
      simpa [Primitive.eval, Side.arrange, heval, ofExcept_identity] using hcall
  | right =>
      cases harrange
      have hcall := callIs_of_primitive asks hbound (by simp) (by simp) rfl rfl
        (hwiden this bits) (hkeep (.int other bits')) reached offers
      have heval := BinaryOp.eval_of_promote_eq_none comparison h bits' bits small.symm
      simpa [Primitive.eval, Side.arrange, heval, ofExcept_identity] using hcall

/-- **Integers compare as numbers**, whatever their types and whichever side the instance is on: a
type without an operator of its own satisfies a contract that requires a comparison with another
integer type, and a call gives the comparison of the two integers. It may not, if the two types do
not meet in a type and both integers have more bits than an `f32`. -/
theorem compares_integers (primitives : config.usePrimitives = true)
    (comparison : symbol.isComparison = true)
    (asks : op.AsksFor symbol side (.builtin (.int other)) (.builtin .bool))
    (undeclared : r.operators (.builtin (.int this)) (some symbol) = []) :
    (∀ contract, r.Requires contract op →
      (∀ s, Reached r config s →
          outcome (check r config (.builtin (.int this)) contract) s = .ok true) ∧
        ∀ args, r.Offers config (.builtin (.int this)) contract op args) ∧
    ∀ (bits : BitVec this.width) (bits' : BitVec other.width),
      (this.promote other).isSome = true ∨ this.toInt bits < 2 ^ 24 ∨
          other.toInt bits' < 2 ^ 24 →
        ∀ s contract, Reached r config s →
          r.Offers config (.builtin (.int this)) contract op [.int other bits'] →
            CallIs r config s (.int this bits) contract op [.int other bits']
              (pure (.bool (symbol.holds (side.arrange (this.toInt bits) (other.toInt bits')).1
                (side.arrange (this.toInt bits) (other.toInt bits')).2))) := by
  have hmeets : ((side.arrange this other).1.promote (side.arrange this other).2) =
      this.promote other := by
    cases side
    · rfl
    · exact IntType.promote_comm other this
  have hbound : ∃ b, r.resolve config (.builtin (.int this)) op = some b := by
    cases h : this.promote other with
    | some met =>
        exact ⟨_, resolve_of_promote_eq_some primitives comparison asks undeclared rfl
          (hmeets.trans h)⟩
    | none =>
        exact ⟨_, resolve_of_promote_eq_none primitives comparison asks undeclared rfl
          (hmeets.trans h)⟩
  obtain ⟨b, hbound⟩ := hbound
  refine ⟨fun contract requires => ?_, fun bits bits' exact s contract reached offers => ?_⟩
  · have offers := Registry.offers_of_requires requires hbound
    exact ⟨fun s reached => check_of_offers reached (offers []), offers⟩
  · cases h : this.promote other with
    | some met =>
        exact callIs_of_promote primitives comparison asks undeclared rfl (hmeets.trans h) bits
          bits' reached offers
    | none =>
        have small := exact.resolve_left (by rw [h]; simp)
        exact callIs_of_promote_eq_none primitives comparison asks undeclared rfl
          (hmeets.trans h) bits bits' small reached offers

/-! ### Equality of `u64` and `i64` -/

/-- Equality with a signed integer. -/
def sameOperation : Operation where
  name := "same"
  kind := .operator .eq .left
  params := [.builtin (.int .i64)]
  ret := .builtin .bool

/-- A contract that requires the operation. -/
def sameRegistry : Registry where
  types := #[⟨"Same", true, .contract { operations := [sameOperation] }⟩]

theorem asksFor_same :
    sameOperation.AsksFor .eq .left (.builtin (.int .i64)) (.builtin .bool) := ⟨rfl, rfl, rfl⟩

theorem requires_same : sameRegistry.Requires ⟨0⟩ sameOperation := by
  refine ⟨⟨⟨0⟩, "Same", [sameOperation]⟩, ?_, rfl⟩
  rw [Registry.extract, Registry.ancestry_of_parents_eq_nil rfl]
  rfl

/-- The least `i64` is no `u64`. -/
theorem compares_integers_same :
    outcome (check sameRegistry {} (.builtin (.int .u64)) ⟨0⟩) {} = .ok true ∧
      CallIs sameRegistry {} {} (.int .u64 0x8000000000000000) ⟨0⟩ sameOperation
        [.int .i64 0x8000000000000000] (pure (.bool false)) := by
  have primitives : ({} : Config).usePrimitives = true := rfl
  have undeclared : sameRegistry.operators (.builtin (.int .u64)) (some .eq) = [] := rfl
  obtain ⟨hoffers, hcalls⟩ := compares_integers primitives rfl asksFor_same undeclared
  obtain ⟨hcheck, hoffers⟩ := hoffers ⟨0⟩ requires_same
  have small : IntType.u64.toInt 0x8000000000000000 < 2 ^ 24 ∨
      IntType.i64.toInt 0x8000000000000000 < 2 ^ 24 := by
    decide
  exact ⟨hcheck _ (.fresh 1), hcalls _ _ (Or.inr small) _ _ (.fresh 1) (hoffers _)⟩

/-- Two integers that do not meet, and that both have more bits than an `f32`, may be equal without
being the same. -/
theorem same_of_rounded :
    CallIs sameRegistry {} {} (.int .u64 0x1000000) ⟨0⟩ sameOperation [.int .i64 0x1000001]
        (pure (.bool true)) ∧
      BinaryOp.eq.holds (IntType.u64.toInt 0x1000000) (IntType.i64.toInt 0x1000001) = false ∧
      ¬CallIs sameRegistry {} {} (.int .u64 0x1000000) ⟨0⟩ sameOperation [.int .i64 0x1000001]
        (pure (.bool (BinaryOp.eq.holds (IntType.u64.toInt 0x1000000)
          (IntType.i64.toInt 0x1000001)))) := by
  have primitives : ({} : Config).usePrimitives = true := rfl
  have undeclared : sameRegistry.operators (.builtin (.int .u64)) (some .eq) = [] := rfl
  have hbound := resolve_of_promote_eq_none primitives rfl asksFor_same undeclared rfl rfl
  have hcall := callIs_of_primitive (v := .int .u64 0x1000000) (x := .int .i64 0x1000001)
    asksFor_same hbound (by simp) (by simp) rfl rfl rfl rfl (.fresh 1)
    (Registry.offers_of_requires requires_same hbound _)
  -- Rounded to an `f32`, the second integer is the first one.
  have heval : BinaryOp.eq.eval (.int .u64 0x1000000)
      (.float .f32 (.ofInt .f32 (IntType.i64.toInt 0x1000001))) = .ok (.bool true) := by
    decide +kernel
  have hdiffer : BinaryOp.eq.holds (IntType.u64.toInt 0x1000000) (IntType.i64.toInt 0x1000001) =
      false := by
    decide
  have hequal : CallIs sameRegistry {} {} (.int .u64 0x1000000) ⟨0⟩ sameOperation
      [.int .i64 0x1000001] (pure (.bool true)) := by
    simpa only [Primitive.eval, Side.arrange, heval, ofExcept_identity] using hcall
  refine ⟨hequal, hdiffer, fun h => ?_⟩
  rw [hdiffer] at h
  have hresult := congrFun (hequal.unique h) .empty
  exact absurd (EStateM.Result.ok.inj hresult).1 (by decide)

end Provider

end Contracts
