import Contracts.Proofs.Extraction
import Contracts.Proofs.Resolution
import Contracts.Proofs.Substitution

set_option autoImplicit false

/-! # More switches

Primitive operations and operators of the other operand are further candidates, so a type that
satisfies a contract without them satisfies it with them. Substitution relaxes a comparison that
keeps what it has paired, also where it fails: there a type goes on to satisfy a contract as long as
the methods that it is bound to are compared without a repetition
(`Registry.satisfied_of_enables`), and need not do so otherwise (`Registry.unsatisfied_pair`). -/

namespace Contracts

/-- Every switch that is on in the first configuration is on in the second one. -/
structure Config.Enables (config config' : Config) : Prop where
  substitution : config.substituteParams = true → config'.substituteParams = true
  primitives : config.usePrimitives = true → config'.usePrimitives = true
  operands : config.searchOperands = true → config'.searchOperands = true

/-- If the binding is to a method, its generic parameters are compared with the ones asked for
without a repetition. -/
def Binding.Unrepeated (b : Binding) : Prop :=
  ∀ m, b.target = .method m → Contracts.Unrepeated b.operation.generics m.decl.generics

namespace Registry

variable {r : Registry} {config config' : Config} {ty : ImplType} {op : Operation}
  {spec : ContractSpec}

theorem operatorOwners_subset (enables : config.Enables config') (other : TypeRef) :
    operatorOwners config ty other ⊆ operatorOwners config' ty other := by
  unfold operatorOwners
  cases other with
  | builtin b => exact List.Subset.refl _
  | param i => exact List.Subset.refl _
  | named idx =>
      dsimp only
      split
      · rename_i searched
        rw [if_pos ⟨enables.operands searched.1, searched.2⟩]
        exact List.Subset.refl _
      · split <;> simp

/-- A signature that unifies does so with more switches, if substitution is no new one or nothing is
repeated. -/
theorem unifies_of_enables (enables : config.Enables config') {required candidate : Signature}
    (h : r.unifies config.substituteParams required candidate = true)
    (unrepeated : config'.substituteParams ≠ config.substituteParams →
      Unrepeated required.generics candidate.generics) :
    r.unifies config'.substituteParams required candidate = true := by
  by_cases hsame : config'.substituteParams = config.substituteParams
  · rw [hsame]
    exact h
  · cases hold : config.substituteParams with
    | true => exact absurd ((enables.substitution hold).trans hold.symm) hsame
    | false =>
        have hnew : config'.substituteParams = true := by
          rw [hold] at hsame
          exact Bool.eq_true_of_not_eq_false hsame
        rw [hold] at h
        rw [hnew]
        exact unifies_of_unrepeated h (unrepeated hsame)

theorem isSome_resolveMethod_of_enables (enables : config.Enables config') {filter : MethodFilter}
    {b : Binding} (h : r.resolveMethod config ty op filter = some b)
    (unrepeated : config'.substituteParams ≠ config.substituteParams → b.Unrepeated) :
    (r.resolveMethod config' ty op filter).isSome = true := by
  obtain ⟨m, hm, hunifies, hb⟩ := exists_of_resolveMethod h
  refine isSome_resolveMethod_iff.2 ⟨m, hm, ?_, Option.isSome_of_mem hb⟩
  refine unifies_of_enables enables hunifies fun hnew => ?_
  have hoperation := operation_of_bindMethod? hb
  have hsignature := unrepeated hnew m (target_of_bindMethod? hb)
  rwa [hoperation] at hsignature

theorem isSome_resolveConversion_of_enables (enables : config.Enables config')
    {kind : ConversionKind} (h : (r.resolveConversion config ty op kind).isSome = true) :
    (r.resolveConversion config' ty op kind).isSome = true := by
  rw [isSome_resolveConversion_iff] at h ⊢
  rcases h with hdeclared | ⟨hon, hprimitive⟩ | hself
  · exact Or.inl hdeclared
  · exact Or.inr (Or.inl ⟨enables.primitives hon, hprimitive⟩)
  · exact Or.inr (Or.inr hself)

theorem isSome_resolveOperator_of_enables (enables : config.Enables config') {symbol : BinaryOp}
    {side : Side} (h : (r.resolveOperator config ty op symbol side).isSome = true) :
    (r.resolveOperator config' ty op symbol side).isSome = true := by
  rw [isSome_resolveOperator_iff] at h ⊢
  obtain ⟨other, hother, hfound⟩ := h
  refine ⟨other, hother, ?_⟩
  rcases hfound with ⟨owner, howner, hdeclared⟩ | ⟨hon, hprimitive⟩
  · exact Or.inl ⟨owner, operatorOwners_subset enables other howner, hdeclared⟩
  · exact Or.inr ⟨enables.primitives hon, hprimitive⟩

/-- An operation that is bound is still bound with more switches. -/
theorem isSome_resolve_of_enables (enables : config.Enables config') {b : Binding}
    (h : r.resolve config ty op = some b)
    (unrepeated : config'.substituteParams ≠ config.substituteParams → b.Unrepeated) :
    (r.resolve config' ty op).isSome = true := by
  unfold resolve at h ⊢
  split at h
  · exact isSome_resolveMethod_of_enables enables h unrepeated
  · exact isSome_resolveMethod_of_enables enables h unrepeated
  · exact isSome_resolveConversion_of_enables enables (Option.isSome_of_mem h)
  · exact isSome_resolveOperator_of_enables enables (Option.isSome_of_mem h)
  · exact Option.isSome_of_mem h
  · exact Option.isSome_of_mem h

/-- A contract that repeats no constraint has nothing to fear. -/
theorem unrepeated_of_nodup
    (h : ∀ op ∈ spec.operations, ∀ p ∈ op.generics, p.constraints.Nodup) :
    ∀ b ∈ (r.matchSpec config ty spec).bindings, b.Unrepeated := by
  intro b hb m _
  obtain ⟨op, hop, hresolve⟩ := List.mem_filterMap.1 hb
  rw [operation_of_resolve hresolve]
  exact Or.inl (h op hop)

/-- **More switches, more matches.** A type that satisfies a contract satisfies it with more
switches on. If substitution is among those, the methods that operations are bound to must be
compared without a repetition. -/
theorem satisfied_of_enables (enables : config.Enables config')
    (satisfied : (r.matchSpec config ty spec).satisfied = true)
    (unrepeated : config'.substituteParams ≠ config.substituteParams →
      ∀ b ∈ (r.matchSpec config ty spec).bindings, b.Unrepeated) :
    (r.matchSpec config' ty spec).satisfied = true := by
  refine satisfied_iff.2 fun op hop => ?_
  obtain ⟨b, hb⟩ := Option.isSome_iff_exists.1 (satisfied_iff.1 satisfied op hop)
  have hmem : b ∈ (r.matchSpec config ty spec).bindings := List.mem_filterMap.2 ⟨op, hop, hb⟩
  exact isSome_resolve_of_enables enables hb fun hnew => unrepeated hnew b hmem

/-! ### With and without a repetition -/

/-- An operation over generic parameters. -/
def pairOperation (generics : List GenericParam) : Operation where
  name := "link"
  kind := .method
  params := [.param 0, .param 2]
  ret := .void
  generics

/-- A contract that asks for the operation, and a class with the same method over generic parameters
of its own. -/
def pairRegistry (required candidate : List GenericParam) : Registry where
  types := #[
    ⟨"Pair", true, .contract { operations := [pairOperation required] }⟩,
    ⟨"Node", true, .implementation false { members := { methods := [
      { toSignature := (pairOperation candidate).toSignature
        name := "link"
        body := fun _ _ => pure .void }] } }⟩]

/-- A parameter bounded by one with bounds of its own. -/
def chained : List GenericParam :=
  [⟨"T", [.bound (.param 1)]⟩, ⟨"U", [.bound .str, .bound (.param 2)]⟩, ⟨"V", []⟩]

theorem satisfied_of_enables_chained :
    ((pairRegistry chained chained).matchSpec {} (.named ⟨1⟩)
        ⟨⟨0⟩, "Pair", [pairOperation chained]⟩).satisfied = true ∧
      ((pairRegistry chained chained).matchSpec { substituteParams := true } (.named ⟨1⟩)
        ⟨⟨0⟩, "Pair", [pairOperation chained]⟩).satisfied = true := by
  have henables : Config.Enables {} { substituteParams := true } := ⟨by simp, id, id⟩
  have hsatisfied : ((pairRegistry chained chained).matchSpec {} (.named ⟨1⟩)
      ⟨⟨0⟩, "Pair", [pairOperation chained]⟩).satisfied = true := by
    decide +kernel
  have hnodup : ∀ op ∈ [pairOperation chained], ∀ p ∈ op.generics, p.constraints.Nodup := by
    decide
  exact ⟨hsatisfied, satisfied_of_enables henables hsatisfied fun _ => unrepeated_of_nodup hnodup⟩

/-- A parameter with a repeated bound, and one whose first bound is given. -/
def repeated (bound : TypeRef) (next : Nat) : List GenericParam :=
  [⟨"T", [.bound (.param 1), .bound (.param 1)]⟩, ⟨"U", [.bound bound, .bound (.param next)]⟩,
    ⟨"V", []⟩, ⟨"W", []⟩]

/-- Tried a second time, parameters with different bounds are taken for equivalent. With
substitution the bounds are compared a step further before they turn out to be different, and that
step pairs a parameter that is needed elsewhere. -/
theorem unsatisfied_pair :
    let r := pairRegistry (repeated (.builtin (.int .i32)) 2) (repeated .object 3)
    Config.Enables {} { substituteParams := true } ∧
      ∃ spec, r.extract ⟨0⟩ = .ok spec ∧
        (r.matchSpec {} (.named ⟨1⟩) spec).satisfied = true ∧
        (r.matchSpec { substituteParams := true } (.named ⟨1⟩) spec).satisfied = false := by
  refine ⟨⟨by simp, id, id⟩, ⟨⟨0⟩, "Pair", [pairOperation (repeated (.builtin (.int .i32)) 2)]⟩,
    ?_, ?_, ?_⟩
  · rw [extract, ancestry_of_parents_eq_nil rfl]
    rfl
  · decide +kernel
  · decide +kernel

end Registry

end Contracts
