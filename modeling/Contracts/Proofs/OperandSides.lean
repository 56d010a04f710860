import Contracts.Proofs.Selection

set_option autoImplicit false

/-! # The two sides of an operator

Whether an operator has its instance on the left or on the right is a matter of which operand is
asked. If operators are looked for on both operand types, `A` provides `self - B` exactly if `B`
provides `A - self`, and by the same member unless both types declare one that fits; then the
adapters of two instances evaluate the same two operands (`Provider.sides_mirror`).

Everything that the resolver does for one side it does for the other with the two coercions
exchanged (`Binding.mirrored`), at the same cost; only the order in which the two types are searched
differs. -/

namespace Contracts

/-! ## Mirrored bindings -/

namespace Binding

/-- The binding of an operation on the other side: the instance and the argument exchange their
coercions. -/
def mirrored (op : Operation) (b : Binding) : Binding :=
  { b with operation := op, receiver := b.args.headD .identity, args := b.receiver :: b.args.tail }

theorem cost_mirrored (op : Operation) (b : Binding) : (b.mirrored op).cost = b.cost := by
  obtain ⟨_, _, receiver, args, ret⟩ := b
  cases args with
  | nil => simp [mirrored, cost, Coercion.isIdentity]
  | cons arg args =>
      simp only [mirrored, cost, List.headD_cons, List.tail_cons, List.cons_append,
        List.countP_cons]
      omega

/-- The cheapest binding is the cheapest one after mirroring. -/
theorem minOn?_map_mirrored (op : Operation) (bs : List Binding) :
    (bs.map (mirrored op)).minOn? cost = (bs.minOn? cost).map (mirrored op) := by
  induction bs with
  | nil => rfl
  | cons b bs ih =>
      rw [List.map_cons, List.minOn?_cons, List.minOn?_cons, ih]
      cases bs.minOn? cost with
      | none => rfl
      | some best =>
          simp only [Option.map_some, Option.elim_some, minOn, cost_mirrored]
          split <;> rfl

/-- Two bindings to the same target: what the one does to the instance, the other does to its one
argument. -/
structure Mirrors (b b' : Binding) : Prop where
  target : b'.target = b.target
  receiver : b'.args = [b.receiver]
  argument : b.args = [b'.receiver]
  ret : b'.ret = b.ret

end Binding

/-! ## Resolving on the other side -/

namespace Registry

variable {r : Registry} {config : Config} {op op' : Operation} {symbol : BinaryOp} {side : Side}
  {this other left right result : TypeRef} {target : Target} {owner : ImplType}

theorem operandCoercions?_opposite :
    r.operandCoercions? side.opposite other this left right =
      (r.operandCoercions? side this other left right).map Prod.swap := by
  cases side <;> simp only [operandCoercions?, Side.opposite, Side.arrange]
  · cases r.coercion? this left <;> cases r.coercion? other right <;> rfl
  · cases r.coercion? this right <;> cases r.coercion? other left <;> rfl

theorem bindOperator?_opposite (hret : op'.ret = op.ret) :
    r.bindOperator? op' side.opposite other this target left right result =
      (r.bindOperator? op side this other target left right result).map (.mirrored op') := by
  simp only [bindOperator?, operandCoercions?_opposite, hret]
  cases r.operandCoercions? side this other left right with
  | none => rfl
  | some coercions => cases r.resultCoercion? result op.ret <;> rfl

theorem resolveDeclared_opposite (hret : op'.ret = op.ret) :
    r.resolveDeclared op' symbol side.opposite other this owner =
      (r.resolveDeclared op symbol side this other owner).map (.mirrored op') := by
  simp only [resolveDeclared, bindOperator?_opposite hret]
  rw [← List.map_filterMap, Binding.minOn?_map_mirrored]

theorem primitiveOperator?_opposite (hret : op'.ret = op.ret) :
    r.primitiveOperator? op' symbol side.opposite other this =
      (r.primitiveOperator? op symbol side this other).map (.mirrored op') := by
  simp only [primitiveOperator?, Side.arrange_opposite, bindOperator?_opposite hret, hret]
  cases Primitive.findOperator? r symbol (side.arrange this other).1 (side.arrange this other).2
    op.ret with
  | none => rfl
  | some p => cases hright : p.right? <;> simp [hright]

/-! ## What a type declares -/

variable (r) in
/-- The operator takes the two operands and gives the result. -/
def Fits (o : OperatorDef) (left right ret : TypeRef) : Prop :=
  (r.coercion? left o.left).isSome = true ∧ (r.coercion? right o.right).isSome = true ∧
    (r.resultCoercion? o.ret ret).isSome = true

variable (r) in
/-- The type declares an operator of the symbol that fits. -/
def HasOperator (owner : ImplType) (symbol : BinaryOp) (left right ret : TypeRef) : Prop :=
  ∃ o ∈ r.operators owner (some symbol), r.Fits o.decl left right ret

/-- An operator can be bound if both operands and the result can be coerced. -/
theorem isSome_bindOperator?_iff :
    (r.bindOperator? op side this other target left right result).isSome = true ↔
      (r.coercion? (side.arrange this other).1 left).isSome = true ∧
        (r.coercion? (side.arrange this other).2 right).isSome = true ∧
          (r.resultCoercion? result op.ret).isSome = true := by
  cases hret : r.resultCoercion? result op.ret with
  | none => simp [bindOperator?, hret]
  | some ret =>
      cases side with
      | left =>
          cases hthis : r.coercion? this left <;> cases hother : r.coercion? other right <;>
            simp [bindOperator?, operandCoercions?, Side.arrange, *]
      | right =>
          cases hthis : r.coercion? this right <;> cases hother : r.coercion? other left <;>
            simp [bindOperator?, operandCoercions?, Side.arrange, *]

theorem isSome_resolveDeclared_iff :
    (r.resolveDeclared op symbol side this other owner).isSome = true ↔
      r.HasOperator owner symbol (side.arrange this other).1 (side.arrange this other).2
        op.ret := by
  unfold resolveDeclared HasOperator Fits
  rw [isSome_minOn?_filterMap_iff]
  simp only [isSome_bindOperator?_iff]

end Registry

/-! ## Two declared types -/

/-- The operation asks for an operator with the instance on the side, a value of the type on the
other, and the result. -/
structure Operation.AsksFor (op : Operation) (symbol : BinaryOp) (side : Side)
    (other ret : TypeRef) : Prop where
  kind : op.kind = .operator symbol side
  params : op.params = [other]
  ret : op.ret = ret

namespace Registry

variable {r : Registry} {config : Config} {op op' : Operation} {symbol : BinaryOp} {side : Side}
  {a b : TypeIdx} {ret : TypeRef}

/-- Operators are looked for on the type first, then on the other operand's type, which may be the
same. -/
theorem resolve_asksFor (search : config.searchOperands = true)
    (asks : op.AsksFor symbol side (.named b) ret) :
    r.resolve config (.named a) op =
      ((r.resolveDeclared op symbol side (.named a) (.named b) (.named a)).or
          (r.resolveDeclared op symbol side (.named a) (.named b) (.named b))).or
        (if config.usePrimitives then r.primitiveOperator? op symbol side (.named a) (.named b)
        else none) := by
  simp only [resolve, asks.kind, resolveOperator_eq, asks.params]
  by_cases hab : a = b
  · subst hab
    simp [operatorOwners, ImplType.toRef]
  · have howners : operatorOwners config (.named a) (.named b) = [.named a, .named b] := by
      simp [operatorOwners, search, Ne.symm hab]
    simp only [List.head?_cons, Option.bind_some, howners, ImplType.toRef, List.findSome?_cons,
      List.findSome?_nil]
    cases r.resolveDeclared op symbol side (.named a) (.named b) (.named a) <;>
      cases r.resolveDeclared op symbol side (.named a) (.named b) (.named b) <;> rfl

/-- For the other side the same is found, with the two types searched in the other order. -/
theorem resolve_opposite (search : config.searchOperands = true)
    (asks : op.AsksFor symbol side (.named b) ret)
    (asks' : op'.AsksFor symbol side.opposite (.named a) ret) :
    r.resolve config (.named b) op' =
      (((r.resolveDeclared op symbol side (.named a) (.named b) (.named b)).or
          (r.resolveDeclared op symbol side (.named a) (.named b) (.named a))).or
        (if config.usePrimitives then r.primitiveOperator? op symbol side (.named a) (.named b)
        else none)).map (.mirrored op') := by
  have hret : op'.ret = op.ret := asks'.ret.trans asks.ret.symm
  rw [resolve_asksFor search asks', resolveDeclared_opposite hret, resolveDeclared_opposite hret,
    primitiveOperator?_opposite hret, Option.map_or, Option.map_or]
  congr 1
  split <;> rfl

theorem isSome_resolve_opposite (search : config.searchOperands = true)
    (asks : op.AsksFor symbol side (.named b) ret)
    (asks' : op'.AsksFor symbol side.opposite (.named a) ret) :
    (r.resolve config (.named b) op').isSome = (r.resolve config (.named a) op).isSome := by
  rw [resolve_opposite search asks asks', resolve_asksFor search asks, Option.isSome_map,
    Option.isSome_or, Option.isSome_or, Option.isSome_or, Option.isSome_or, Bool.or_comm
      (r.resolveDeclared op symbol side (.named a) (.named b) (.named b)).isSome]

/-- The order does not matter if one of the two types has no operator that fits. -/
theorem resolve_opposite_eq_map (search : config.searchOperands = true)
    (asks : op.AsksFor symbol side (.named b) ret)
    (asks' : op'.AsksFor symbol side.opposite (.named a) ret) {left right : TypeRef}
    (harrange : side.arrange (.named a) (.named b) = (left, right))
    (single : a = b ∨ ¬(r.HasOperator (.named a) symbol left right ret ∧
      r.HasOperator (.named b) symbol left right ret)) :
    r.resolve config (.named b) op' =
      (r.resolve config (.named a) op).map (.mirrored op') := by
  rw [resolve_opposite search asks asks', resolve_asksFor search asks]
  rcases single with rfl | hnot
  · rfl
  · have hdeclares : ∀ owner, (r.resolveDeclared op symbol side (.named a) (.named b)
        owner).isSome = true ↔ r.HasOperator owner symbol left right ret := fun owner => by
      rw [isSome_resolveDeclared_iff, harrange, asks.ret]
    rw [← hdeclares, ← hdeclares] at hnot
    cases hA : r.resolveDeclared op symbol side (.named a) (.named b) (.named a) with
    | none => simp
    | some bA =>
        cases hB : r.resolveDeclared op symbol side (.named a) (.named b) (.named b) with
        | none => simp
        | some bB => exact absurd ⟨by rw [hA]; rfl, by rw [hB]; rfl⟩ hnot

/-! ## Evaluating the operands -/

theorem exists_of_resolve {bound : Binding} (asks : op.AsksFor symbol side (.named b) ret)
    (h : r.resolve config (.named a) op = some bound) :
    ∃ target left right result, ((∃ o, target = .operator o) ∨ ∃ p, target = .primitive p) ∧
      r.bindOperator? op side (.named a) (.named b) target left right result = some bound := by
  simp only [resolve, asks.kind] at h
  obtain ⟨other, hother, hbind⟩ := exists_of_resolveOperator h
  obtain rfl : .named b = other := by simpa [asks.params] using hother
  rcases hbind with ⟨o, hbind⟩ | ⟨p, left, right, result, hbind⟩
  · exact ⟨_, _, _, _, Or.inl ⟨o, rfl⟩, hbind⟩
  · exact ⟨_, _, _, _, Or.inr ⟨p, rfl⟩, hbind⟩

/-- The binding of an operator has one argument, which exchanges its coercion with the instance. -/
theorem mirrors_of_resolve {bound : Binding} (asks : op.AsksFor symbol side (.named b) ret)
    (h : r.resolve config (.named a) op = some bound) (op' : Operation) :
    bound.Mirrors (bound.mirrored op') := by
  obtain ⟨target, left, right, result, -, hbind⟩ := exists_of_resolve asks h
  obtain ⟨receiver, arg, ret, rfl, -⟩ := exists_of_bindOperator? hbind
  exact ⟨rfl, rfl, rfl, rfl⟩

/-- A coercion of instances of a declared type keeps them as they are. -/
theorem apply_of_coercion?_named {target : TypeRef} {c : Coercion}
    (h : r.coercion? (.named a) target = some c) (v : Value) : c.apply v = .ok v := by
  rcases coercion?_cases h with ⟨_, _, hsource, -⟩ | ⟨hkeep, -⟩
  · exact absurd hsource (by simp)
  · exact hkeep v

end Registry

/-- What the target of an operator makes of its left and its right operand. -/
def Target.combine? : Target → Option (Value → Value → Eval Value)
  | .operator o => some fun left right => o.decl.body none [left, right]
  | .primitive p => some fun left right => Eval.ofExcept (p.eval left (some right))
  | .method _ | .conversion _ | .identity | .property _ => none

namespace Binding

/-- The target of the binding evaluates the two operands, and the result is coerced. -/
def Evaluates (b : Binding) (left right : Value) (run : Eval Value) : Prop :=
  ∃ combine, b.target.combine? = some combine ∧
    run = combine left right >>= fun w => Eval.ofExcept (b.ret.apply w)

variable {b b' : Binding} {left right : Value} {run run' : Eval Value}

theorem Evaluates.unique (h : b.Evaluates left right run) (h' : b.Evaluates left right run') :
    run = run' := by
  obtain ⟨combine, hcombine, rfl⟩ := h
  obtain ⟨combine', hcombine', rfl⟩ := h'
  rw [Option.some.inj (hcombine.symm.trans hcombine')]

theorem Mirrors.evaluates_iff (h : b.Mirrors b') :
    b'.Evaluates left right run ↔ b.Evaluates left right run := by
  simp only [Evaluates, h.target, h.ret]

end Binding

namespace Registry

variable {r : Registry} {config : Config} {op op' : Operation} {symbol : BinaryOp} {side : Side}
  {a b : TypeIdx} {ret : TypeRef}

/-- Operands of declared types reach the operator as they are, in its order. -/
theorem evaluates_of_resolve {bound : Binding} (asks : op.AsksFor symbol side (.named b) ret)
    (h : r.resolve config (.named a) op = some bound) {self : Value}
    (hself : self.runtimeType? = some (.named a)) (v : Value) (name : String) :
    bound.Evaluates (side.arrange self v).1 (side.arrange self v).2
      (bound.run name (some self) [v]) := by
  obtain ⟨target, left, right, result, htarget, hbind⟩ := exists_of_resolve asks h
  obtain ⟨receiver, arg, ret, rfl, hreceiver, harg, -⟩ := exists_of_bindOperator? hbind
  have hside : op.side = side := by simp [Operation.side, asks.kind]
  have hnull := (Value.present_of_runtimeType? hself).1
  have hkeepSelf := apply_of_coercion?_named hreceiver self
  have hkeepOther := apply_of_coercion?_named harg v
  rcases htarget with ⟨o, rfl⟩ | ⟨p, rfl⟩
  all_goals
    refine ⟨_, rfl, ?_⟩
    simp [Binding.run, Binding.coercedArg, requireInstance_of_ne_null hnull, Eval.ofExcept_ok,
      hkeepSelf, hkeepOther, hside]

end Registry

namespace Provider

variable {r : Registry} {config : Config}

/-- **Operator sides mirror each other.** If operators are looked for on both operand types, an
operator with an instance of `a` on the left is provided by `a` exactly if the one with an instance
of `b` on the right is provided by `b`. Unless `a` and `b` are different and both declare one that
fits, both are bound to the same target, and from whatever contracts and in whatever states
instances of the two are converted, calling either with the other evaluates the same operands. -/
theorem sides_mirror (search : config.searchOperands = true) {a b : TypeIdx} {symbol : BinaryOp}
    {ret : TypeRef} {opL opR : Operation} (asksL : opL.AsksFor symbol .left (.named b) ret)
    (asksR : opR.AsksFor symbol .right (.named a) ret) :
    ((r.resolve config (.named a) opL).isSome = true ↔
      (r.resolve config (.named b) opR).isSome = true) ∧
    (a = b ∨ ¬(r.HasOperator (.named a) symbol (.named a) (.named b) ret ∧
        r.HasOperator (.named b) symbol (.named a) (.named b) ret) →
      ∀ bL bR, r.resolve config (.named a) opL = some bL →
        r.resolve config (.named b) opR = some bR →
        bL.Mirrors bR ∧
        ∀ v w : Value, v.runtimeType? = some (.named a) → w.runtimeType? = some (.named b) →
          ∃ run, bL.Evaluates v w run ∧
            (∀ s contract, Reached r config s → r.Offers config (.named a) contract opL [w] →
              CallIs r config s v contract opL [w] run) ∧
            ∀ s contract, Reached r config s → r.Offers config (.named b) contract opR [v] →
              CallIs r config s w contract opR [v] run) := by
  refine ⟨by rw [Registry.isSome_resolve_opposite search asksL asksR], ?_⟩
  intro single bL bR hL hR
  have hmirrored := hR
  rw [Registry.resolve_opposite_eq_map search asksL asksR rfl single, hL] at hmirrored
  obtain rfl := Option.some.inj hmirrored
  have mirrors := Registry.mirrors_of_resolve asksL hL opR
  refine ⟨mirrors, fun v w hv hw => ?_⟩
  have hrunL := Registry.evaluates_of_resolve asksL hL hv w opL.slotName
  have hrunR := Registry.evaluates_of_resolve asksR hR hw v opR.slotName
  refine ⟨_, hrunL, fun s contract reached offers => ?_, fun s contract reached offers => ?_⟩
  · refine callIs_of_offers reached hv offers hL ?_
    rw [asksL.params]
    exact .cons (Registry.accepts_runtimeType hw) .nil
  · rw [hrunL.unique (mirrors.evaluates_iff.1 hrunR)]
    refine callIs_of_offers reached hw offers hR ?_
    rw [asksR.params]
    exact .cons (Registry.accepts_runtimeType hv) .nil

/-! ### The operator of the other operand -/

/-- A point less a vector. -/
def backOperation : Operation where
  name := "back"
  kind := .operator .sub .left
  params := [.named ⟨3⟩]
  ret := .named ⟨2⟩

/-- The same, asked of the vector. -/
def backFromOperation : Operation where
  name := "back_from"
  kind := .operator .sub .right
  params := [.named ⟨2⟩]
  ret := .named ⟨2⟩

/-- A difference that is the point itself. -/
def backOperator : OperatorDef where
  op := .sub
  left := .named ⟨2⟩
  right := .named ⟨3⟩
  ret := .named ⟨2⟩
  body := fun _ args => pure (args.headD .null)

/-- A contract for either operand, and two structs of which the second has the operator. -/
def backRegistry : Registry where
  types := #[
    ⟨"Movable", true, .contract { operations := [backOperation] }⟩,
    ⟨"Movement", true, .contract { operations := [backFromOperation] }⟩,
    ⟨"Point", true, .implementation true {}⟩,
    ⟨"Vector", true, .implementation true { members := { operators := [backOperator] } }⟩]

/-- A point. -/
def backPoint : Value := .object ⟨0, ⟨2⟩⟩

/-- A vector. -/
def backVector : Value := .object ⟨1, ⟨3⟩⟩

theorem sides_mirror_back :
    CallIs backRegistry {} {} backPoint ⟨0⟩ backOperation [backVector] (pure backPoint) ∧
      CallIs backRegistry {} (endState (serve backRegistry {} (.convert backPoint ⟨0⟩)) {})
        backVector ⟨1⟩ backFromOperation [backPoint] (pure backPoint) := by
  have asksL : backOperation.AsksFor .sub .left (.named ⟨3⟩) (.named ⟨2⟩) := ⟨rfl, rfl, rfl⟩
  have asksR : backFromOperation.AsksFor .sub .right (.named ⟨2⟩) (.named ⟨2⟩) := ⟨rfl, rfl, rfl⟩
  have search : ({} : Config).searchOperands = true := rfl
  obtain ⟨-, hmirror⟩ := sides_mirror (r := backRegistry) search asksL asksR
  have hnone : ¬backRegistry.HasOperator (.named ⟨2⟩) .sub (.named ⟨2⟩) (.named ⟨3⟩)
      (.named ⟨2⟩) := by
    rintro ⟨o, ho, -⟩
    have hempty : backRegistry.operators (.named ⟨2⟩) (some .sub) = [] := rfl
    exact absurd (hempty ▸ ho) List.not_mem_nil
  have offersL : backRegistry.Offers {} (.named ⟨2⟩) ⟨0⟩ backOperation [backVector] := by
    refine ⟨⟨⟨0⟩, "Movable", [backOperation]⟩, rfl, ?_, ?_, [], [], rfl, by simp⟩
    · rw [Registry.extract, Registry.ancestry_of_parents_eq_nil rfl]
      rfl
    · decide +kernel
  have offersR : backRegistry.Offers {} (.named ⟨3⟩) ⟨1⟩ backFromOperation [backPoint] := by
    refine ⟨⟨⟨1⟩, "Movement", [backFromOperation]⟩, rfl, ?_, ?_, [], [], rfl, by simp⟩
    · rw [Registry.extract, Registry.ancestry_of_parents_eq_nil rfl]
      rfl
    · decide +kernel
  obtain ⟨-, hcalls⟩ := hmirror (Or.inr fun h => hnone h.1) _ _ rfl rfl
  obtain ⟨run, ⟨combine, hcombine, rfl⟩, hleft, hright⟩ := hcalls backPoint backVector rfl rfl
  obtain rfl := Option.some.inj hcombine
  exact ⟨hleft _ _ (.fresh 1) offersL, hright _ _ (.serve (.fresh 1) _) offersR⟩

end Provider

end Contracts
