import Contracts.Match

set_option autoImplicit false

/-! # When an operation is bound

For each kind of operation: what there must be for a binding to be found, and what a binding that is
found consists of. That is all that later modules know of the resolvers, so what keeps a candidate
keeps a binding. A type satisfies a contract exactly if each operation is bound
(`Registry.satisfied_iff`), and a binding is one of the operation that was asked for
(`Registry.operation_of_resolve`). -/

namespace Contracts

namespace Registry

variable {r : Registry} {config : Config} {ty : ImplType} {op : Operation} {b : Binding}

/-- A cheapest one is found exactly if there is one at all. -/
theorem isSome_minOn?_filterMap_iff {α : Type} {xs : List α} {f : α → Option Binding} :
    ((xs.filterMap f).minOn? Binding.cost).isSome = true ↔ ∃ x ∈ xs, (f x).isSome = true := by
  constructor
  · intro h
    obtain ⟨best, hbest⟩ := Option.isSome_iff_exists.1 h
    obtain ⟨x, hx, hfx⟩ := List.mem_filterMap.1 (List.minOn?_mem hbest)
    exact ⟨x, hx, Option.isSome_of_mem hfx⟩
  · rintro ⟨x, hx, hfx⟩
    obtain ⟨found, hfound⟩ := Option.isSome_iff_exists.1 hfx
    exact List.isSome_minOn?_of_mem (List.mem_filterMap.2 ⟨x, hx, hfound⟩)

/-! ## Methods -/

/-- A method of the right name, arity and receiver is bound if it unifies and every value on its
way has a coercion. -/
theorem isSome_resolveMethod_iff {filter : MethodFilter} :
    (r.resolveMethod config ty op filter).isSome = true ↔
      ∃ m ∈ r.methods ty (some op.name) (some op.arity) filter,
        r.unifies config.substituteParams op.toSignature m.decl.toSignature = true ∧
          (r.bindMethod? op m).isSome = true := by
  unfold resolveMethod unifyingMethods
  rw [isSome_minOn?_filterMap_iff]
  simp only [List.mem_filter, and_assoc]

theorem exists_of_bindMethod? {m : Located MethodDef} (h : r.bindMethod? op m = some b) :
    ∃ args ret, b = { operation := op, target := .method m, args, ret } ∧
      (op.params.zip m.decl.params).mapM (fun (source, target) => r.coercion? source target) =
        some args ∧ r.resultCoercion? m.decl.ret op.ret = some ret := by
  obtain ⟨args, hargs, hrest⟩ := Option.bind_eq_some_iff.1 h
  obtain ⟨ret, hret, hpure⟩ := Option.bind_eq_some_iff.1 hrest
  exact ⟨args, ret, (Option.some.inj hpure).symm, hargs, hret⟩

theorem operation_of_bindMethod? {m : Located MethodDef} (h : r.bindMethod? op m = some b) :
    b.operation = op := by
  obtain ⟨args, ret, rfl, -, -⟩ := exists_of_bindMethod? h
  rfl

theorem target_of_bindMethod? {m : Located MethodDef} (h : r.bindMethod? op m = some b) :
    b.target = .method m := by
  obtain ⟨args, ret, rfl, -, -⟩ := exists_of_bindMethod? h
  rfl

theorem exists_of_resolveMethod {filter : MethodFilter}
    (h : r.resolveMethod config ty op filter = some b) :
    ∃ m ∈ r.methods ty (some op.name) (some op.arity) filter,
      r.unifies config.substituteParams op.toSignature m.decl.toSignature = true ∧
        r.bindMethod? op m = some b := by
  obtain ⟨m, hm, hb⟩ := List.mem_filterMap.1 (List.minOn?_mem h)
  obtain ⟨hm, hunifies⟩ := List.mem_filter.1 hm
  exact ⟨m, hm, hunifies, hb⟩

/-! ## Conversions -/

/-- A conversion is bound to a declared one, to a primitive one, or to the value itself. -/
theorem isSome_resolveConversion_iff {kind : ConversionKind} :
    (r.resolveConversion config ty op kind).isSome = true ↔
      (∃ c ∈ r.conversions ty kind, c.decl.target = op.ret) ∨
        (config.usePrimitives = true ∧
          (Primitive.findConversion? kind ty.toRef op.ret).isSome = true) ∨
        op.ret = ty.toRef := by
  unfold resolveConversion
  cases hfind : (r.conversions ty kind).find? (·.decl.target = op.ret) with
  | some c =>
      have htarget : c.decl.target = op.ret := by simpa using List.find?_some hfind
      exact iff_of_true rfl (Or.inl ⟨c, List.mem_of_find?_eq_some hfind, htarget⟩)
  | none =>
      have hnone : ¬∃ c ∈ r.conversions ty kind, c.decl.target = op.ret := by
        simpa using List.find?_eq_none.1 hfind
      rw [or_iff_right hnone]
      cases hprimitives : config.usePrimitives with
      | false => by_cases hself : op.ret = ty.toRef <;> simp [hself]
      | true =>
          cases hp : Primitive.findConversion? kind ty.toRef op.ret with
          | some p => simp
          | none => by_cases hself : op.ret = ty.toRef <;> simp [hself]

theorem exists_of_resolveConversion {kind : ConversionKind}
    (h : r.resolveConversion config ty op kind = some b) :
    ∃ target, b = { operation := op, target } ∧
      ((∃ c, target = .conversion c ∧ c.decl.target = op.ret) ∨ (∃ p, target = .primitive p) ∨
        target = .identity) := by
  unfold resolveConversion at h
  split at h
  · rename_i c hfind
    have htarget : c.decl.target = op.ret := by simpa using List.find?_some hfind
    exact ⟨_, (Option.some.inj h).symm, Or.inl ⟨c, rfl, htarget⟩⟩
  · split at h
    · rename_i p _
      exact ⟨_, (Option.some.inj h).symm, Or.inr (Or.inl ⟨p, rfl⟩)⟩
    · obtain ⟨-, h⟩ := Option.ite_none_right_eq_some.1 h
      exact ⟨_, (Option.some.inj h).symm, Or.inr (Or.inr rfl)⟩

/-! ## Operators -/

/-- What an operator is bound to if no declared one is. -/
def primitiveOperator? (r : Registry) (op : Operation) (symbol : BinaryOp) (side : Side)
    (this other : TypeRef) : Option Binding := do
  let (left, right) := side.arrange this other
  let p ← Primitive.findOperator? r symbol left right op.ret
  let second ← p.right?
  r.bindOperator? op side this other (.primitive p) (.builtin p.left) (.builtin second)
    (.builtin p.result)

/-- Declared operators come first, those of the first owner that has one, and then the primitive
one. -/
theorem resolveOperator_eq {symbol : BinaryOp} {side : Side} :
    r.resolveOperator config ty op symbol side = op.params.head?.bind fun other =>
      ((operatorOwners config ty other).findSome?
          (r.resolveDeclared op symbol side ty.toRef other)).or
        (if config.usePrimitives then r.primitiveOperator? op symbol side ty.toRef other
        else none) := by
  unfold resolveOperator
  refine congrArg (Option.bind op.params.head?) (funext fun other => ?_)
  cases (operatorOwners config ty other).findSome?
    (r.resolveDeclared op symbol side ty.toRef other) <;> rfl

/-- An operator is bound to a declared one of an owner, or to a primitive one. -/
theorem isSome_resolveOperator_iff {symbol : BinaryOp} {side : Side} :
    (r.resolveOperator config ty op symbol side).isSome = true ↔
      ∃ other, op.params.head? = some other ∧
        ((∃ owner ∈ operatorOwners config ty other, ∃ o ∈ r.operators owner (some symbol),
            (r.bindOperator? op side ty.toRef other (.operator o) o.decl.left o.decl.right
              o.decl.ret).isSome = true) ∨
          config.usePrimitives = true ∧
            (r.primitiveOperator? op symbol side ty.toRef other).isSome = true) := by
  rw [resolveOperator_eq, Option.isSome_bind]
  cases op.params.head? with
  | none => simp
  | some other =>
      have hdeclared : ((operatorOwners config ty other).findSome?
          (r.resolveDeclared op symbol side ty.toRef other)).isSome = true ↔
            ∃ owner ∈ operatorOwners config ty other, ∃ o ∈ r.operators owner (some symbol),
              (r.bindOperator? op side ty.toRef other (.operator o) o.decl.left o.decl.right
                o.decl.ret).isSome = true := by
        rw [List.findSome?_isSome_iff]
        unfold resolveDeclared
        simp only [isSome_minOn?_filterMap_iff]
      simp only [Option.any_some, Option.isSome_or, Bool.or_eq_true, hdeclared, Option.some.injEq,
        exists_eq_left']
      cases config.usePrimitives <;> simp

theorem exists_of_bindOperator? {side : Side} {this other left right result : TypeRef}
    {target : Target} (h : r.bindOperator? op side this other target left right result = some b) :
    ∃ receiver arg ret, b = { operation := op, target, receiver, args := [arg], ret } ∧
      r.coercion? this (side.arrange left right).1 = some receiver ∧
        r.coercion? other (side.arrange left right).2 = some arg ∧
          r.resultCoercion? result op.ret = some ret := by
  obtain ⟨⟨_, _⟩, hoperands, hrest⟩ := Option.bind_eq_some_iff.1 h
  obtain ⟨ret, hret, hpure⟩ := Option.bind_eq_some_iff.1 hrest
  obtain ⟨receiver, hreceiver, hrest⟩ := Option.bind_eq_some_iff.1 hoperands
  obtain ⟨arg, harg, hpair⟩ := Option.bind_eq_some_iff.1 hrest
  obtain ⟨rfl, rfl⟩ := Prod.mk.inj (Option.some.inj hpair)
  exact ⟨receiver, arg, ret, (Option.some.inj hpure).symm, hreceiver, harg, hret⟩

theorem exists_of_resolveOperator {symbol : BinaryOp} {side : Side}
    (h : r.resolveOperator config ty op symbol side = some b) :
    ∃ other, op.params.head? = some other ∧
      ((∃ o : Located OperatorDef, r.bindOperator? op side ty.toRef other (.operator o)
          o.decl.left o.decl.right o.decl.ret = some b) ∨
        ∃ p left right result,
          r.bindOperator? op side ty.toRef other (.primitive p) left right result = some b) := by
  rw [resolveOperator_eq] at h
  obtain ⟨other, hother, hrest⟩ := Option.bind_eq_some_iff.1 h
  rcases Option.or_eq_some_iff.1 hrest with hdeclared | ⟨-, hprimitive⟩
  · obtain ⟨owner, -, howner⟩ := List.exists_of_findSome?_eq_some hdeclared
    obtain ⟨o, -, hb⟩ := List.mem_filterMap.1 (List.minOn?_mem howner)
    exact ⟨other, hother, Or.inl ⟨o, hb⟩⟩
  · obtain ⟨-, hprimitive⟩ := Option.ite_none_right_eq_some.1 hprimitive
    obtain ⟨p, -, hrest⟩ := Option.bind_eq_some_iff.1 hprimitive
    obtain ⟨second, -, hb⟩ := Option.bind_eq_some_iff.1 hrest
    exact ⟨other, hother, Or.inr ⟨p, _, _, _, hb⟩⟩

/-! ## Properties -/

theorem exists_of_resolveGetter (h : r.resolveGetter ty op = some b) :
    ∃ p getter ret, b = { operation := op, target := .property p, ret } ∧
      r.property? ty op.name = some p ∧ p.getter = some getter ∧
        r.coercion? p.ty op.ret = some ret := by
  obtain ⟨p, hp, hrest⟩ := Option.bind_eq_some_iff.1 h
  obtain ⟨hsome, hrest⟩ := Option.ite_none_right_eq_some.1 hrest
  obtain ⟨getter, hgetter⟩ := Option.isSome_iff_exists.1 hsome
  obtain ⟨ret, hret, hpure⟩ := Option.bind_eq_some_iff.1 hrest
  exact ⟨p, getter, ret, (Option.some.inj hpure).symm, hp, hgetter, hret⟩

theorem exists_of_resolveSetter (h : r.resolveSetter ty op = some b) :
    ∃ p setter param arg, b = { operation := op, target := .property p, args := [arg] } ∧
      p.setter = some setter ∧ op.params.head? = some param ∧
        r.coercion? param p.ty = some arg := by
  obtain ⟨p, -, hrest⟩ := Option.bind_eq_some_iff.1 h
  obtain ⟨hsome, hrest⟩ := Option.ite_none_right_eq_some.1 hrest
  obtain ⟨setter, hsetter⟩ := Option.isSome_iff_exists.1 hsome
  obtain ⟨param, hparam, hrest⟩ := Option.bind_eq_some_iff.1 hrest
  obtain ⟨arg, harg, hpure⟩ := Option.bind_eq_some_iff.1 hrest
  exact ⟨p, setter, param, arg, (Option.some.inj hpure).symm, hsetter, hparam, harg⟩

/-! ## Whole contracts -/

/-- A binding is one of the operation that was to be bound. -/
theorem operation_of_resolve (h : r.resolve config ty op = some b) : b.operation = op := by
  unfold resolve at h
  split at h
  · obtain ⟨m, -, -, hb⟩ := exists_of_resolveMethod h
    exact operation_of_bindMethod? hb
  · obtain ⟨m, -, -, hb⟩ := exists_of_resolveMethod h
    exact operation_of_bindMethod? hb
  · obtain ⟨target, rfl, -⟩ := exists_of_resolveConversion h
    rfl
  · obtain ⟨other, -, ⟨o, hb⟩ | ⟨p, left, right, result, hb⟩⟩ := exists_of_resolveOperator h
    all_goals
      obtain ⟨receiver, arg, ret, rfl, -⟩ := exists_of_bindOperator? hb
      rfl
  · obtain ⟨p, getter, ret, rfl, -⟩ := exists_of_resolveGetter h
    rfl
  · obtain ⟨p, setter, param, arg, rfl, -⟩ := exists_of_resolveSetter h
    rfl

end Registry

/-! ## Bound or missing -/

/-- A match deals the operations of a contract out: those in `missing` have become its issues, the
others its bindings. -/
structure MatchResult.DealsOut (m : MatchResult) (r : Registry) (config : Config) (ty : ImplType)
    (ops missing : List Operation) : Prop where
  /-- Every operation is on one of the sides, as often as it is asked for. -/
  parts : (m.bindings.map (·.operation) ++ missing).Perm ops
  /-- No operation is on both sides. -/
  apart : ∀ op ∈ missing, op ∉ m.bindings.map (·.operation)
  /-- The bindings are in the contract's order. -/
  bindings_ordered : (m.bindings.map (·.operation)).Sublist ops
  /-- The issues are in the contract's order. -/
  missing_ordered : missing.Sublist ops
  bound : ∀ b ∈ m.bindings, r.resolve config ty b.operation = some b
  unbound : ∀ op ∈ missing, r.resolve config ty op = none
  issues : m.issues = missing.map (r.issue ty)

/-- As each operation is on one side, none is missing exactly if there are as many bindings as
operations. -/
theorem MatchResult.DealsOut.issues_eq_nil_iff {m : MatchResult} {r : Registry} {config : Config}
    {ty : ImplType} {ops missing : List Operation} (h : m.DealsOut r config ty ops missing) :
    m.issues = [] ↔ m.bindings.length = ops.length := by
  have hlength := h.parts.length_eq
  rw [List.length_append, List.length_map] at hlength
  rw [h.issues, List.map_eq_nil_iff, ← List.length_eq_zero_iff]
  omega

namespace Registry

variable {r : Registry} {config : Config} {ty : ImplType} {spec : ContractSpec}

theorem map_operation_filterMap (ops : List Operation) :
    (ops.filterMap (r.resolve config ty)).map (·.operation) =
      ops.filter fun op => (r.resolve config ty op).isSome := by
  induction ops with
  | nil => rfl
  | cons op ops ih =>
      cases h : r.resolve config ty op with
      | none => rw [List.filterMap_cons_none h, List.filter_cons_of_neg (by simp [h]), ih]
      | some b =>
          rw [List.filterMap_cons_some h, List.filter_cons_of_pos (by simp [h]), List.map_cons, ih,
            operation_of_resolve h]

/-- The operations without a binding are those that have become issues. -/
theorem dealsOut_matchSpec (config : Config) (ty : ImplType) (spec : ContractSpec) :
    (r.matchSpec config ty spec).DealsOut r config ty spec.operations
      (spec.operations.filter fun op => (r.resolve config ty op).isNone) := by
  have hoperations : (r.matchSpec config ty spec).bindings.map (·.operation) =
      spec.operations.filter fun op => (r.resolve config ty op).isSome :=
    map_operation_filterMap spec.operations
  refine ⟨?_, ?_, ?_, List.filter_sublist, ?_, ?_, rfl⟩
  · have hperm := List.filter_append_perm (fun op => (r.resolve config ty op).isSome)
      spec.operations
    simpa only [hoperations, Option.not_isSome] using hperm
  · intro op hop hbound
    rw [hoperations] at hbound
    have hnone := (List.mem_filter.1 hop).2
    have hsome := (List.mem_filter.1 hbound).2
    simp [Option.isNone_iff_eq_none.1 hnone] at hsome
  · rw [hoperations]
    exact List.filter_sublist
  · intro b hb
    obtain ⟨op, -, hresolve⟩ := List.mem_filterMap.1 hb
    rwa [operation_of_resolve hresolve]
  · intro op hop
    exact Option.isNone_iff_eq_none.1 (List.mem_filter.1 hop).2

/-- Counting the bindings finds nothing that there is no issue about. -/
theorem satisfied_iff_issues_eq_nil : (r.matchSpec config ty spec).satisfied = true ↔
    (r.matchSpec config ty spec).issues = [] := by
  have hcount := (dealsOut_matchSpec (r := r) config ty spec).issues_eq_nil_iff
  have hsatisfied : (r.matchSpec config ty spec).satisfied =
      ((r.matchSpec config ty spec).issues.isEmpty &&
        (r.matchSpec config ty spec).bindings.length == spec.operations.length) := rfl
  rw [hsatisfied, Bool.and_eq_true, List.isEmpty_iff, beq_iff_eq]
  exact and_iff_left_of_imp hcount.1

/-- A contract is satisfied exactly if each of its operations is bound. -/
theorem satisfied_iff : (r.matchSpec config ty spec).satisfied = true ↔
    ∀ op ∈ spec.operations, (r.resolve config ty op).isSome = true := by
  rw [satisfied_iff_issues_eq_nil]
  simp [matchSpec, List.filter_eq_nil_iff, Option.isSome_iff_ne_none]

end Registry

end Contracts
