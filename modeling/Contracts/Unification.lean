import Contracts.Assignability
import Contracts.Registry.Inventory

set_option autoImplicit false

/-! # Unification of signatures

Whether a method can stand in for a required signature. Generic parameters unify only with generic
parameters: they are paired one to one over the whole signature, and paired parameters need
constraints that correspond. Concrete parameters are the same type, or assignable if substitution
is allowed; a concrete result is assignable to the required one. -/

namespace Contracts

/-- The generic parameters paired so far, required one first, the newest pair at the head. -/
abbrev Pairing := List (Nat × Nat)

/-- A required signature's generic parameters and a candidate's, to be compared in a registry. -/
structure Unifier where
  registry : Registry
  required : List GenericParam
  candidate : List GenericParam
  /-- Whether parameters may be less derived than required. -/
  substitute : Bool

namespace Unifier

/-- Compare concrete types. Without substitution only results may differ. -/
def concrete (u : Unifier) (variance : Variance) (required candidate : TypeRef) : Bool :=
  u.registry.checkVariance candidate required
    (if u.substitute ∨ variance = .covariant then variance else .invariant)

/-- Unify two types, given how to unify two generic parameters. -/
def types (u : Unifier) (params : Nat → Nat → StateM Pairing Bool) (variance : Variance) :
    TypeRef → TypeRef → StateM Pairing Bool
  | .param r, .param c => params r c
  | .param _, _ | _, .param _ => pure false
  | required, candidate => pure (u.concrete variance required candidate)

/-- Whether two constraints correspond. -/
def constraint (u : Unifier) (params : Nat → Nat → StateM Pairing Bool) :
    Constraint → Constraint → StateM Pairing Bool
  | .reference, .reference | .value, .value => pure true
  | .bound required, .bound candidate => u.types params .contravariant required candidate
  | _, _ => pure false

/-- Whether two lists of constraints are equally long and every required one has a counterpart,
looked for in order. Pairs made on the way are kept. -/
def constraints (u : Unifier) (params : Nat → Nat → StateM Pairing Bool)
    (required candidate : List Constraint) : StateM Pairing Bool :=
  if required.length = candidate.length then
    required.allM fun r => candidate.anyM fun c => u.constraint params r c
  else pure false

/-- Unify two generic parameters: paired already, or both free and then paired with constraints
that correspond. Comparing constraints may lead to further parameters; each step down has paired a
required parameter that no step above it has, so `depth` need not exceed their number by more
than one. -/
def params (u : Unifier) : Nat → Nat → Nat → StateM Pairing Bool
  | 0, _, _ => pure false
  | depth + 1, r, c => do
      let pairs ← get
      if (r, c) ∈ pairs then pure true
      else if pairs.any fun (r', c') => r' = r ∨ c' = c then pure false
      else
        set ((r, c) :: pairs)
        match u.required[r]?, u.candidate[c]? with
        | some required, some candidate =>
            u.constraints (u.params depth) required.constraints candidate.constraints
        | _, _ => pure false

/-- Unify two generic parameters. -/
def paramPair (u : Unifier) : Nat → Nat → StateM Pairing Bool :=
  u.params (u.required.length + 1)

/-- Unify the parameters one by one, then the results; a result is absent on both sides or on
neither. -/
def signature (u : Unifier) (required candidate : Signature) : StateM Pairing Bool := do
  let paramsFit ← (required.params.zip candidate.params).allM fun (r, c) =>
    u.types u.paramPair .contravariant r c
  if !paramsFit then pure false
  else if required.ret.isVoid ∨ candidate.ret.isVoid then pure (required.ret = candidate.ret)
  else u.types u.paramPair .covariant required.ret candidate.ret

end Unifier

namespace Registry

/-- Whether `candidate` can stand in for `required`. -/
def unifies (r : Registry) (substitute : Bool) (required candidate : Signature) : Bool :=
  if candidate.params.length ≠ required.params.length ∨
      candidate.generics.length ≠ required.generics.length then false
  else
    let u : Unifier := ⟨r, required.generics, candidate.generics, substitute⟩
    ((u.signature required candidate).run []).1

/-- The unifier of two signatures. -/
def unifier (r : Registry) (substitute : Bool) (required candidate : Signature) : Unifier :=
  ⟨r, required.generics, candidate.generics, substitute⟩

/-- Signatures with equally many parameters, generic ones too, unify if their types do. -/
theorem unifies_eq_true_iff {r : Registry} {substitute : Bool} {required candidate : Signature} :
    r.unifies substitute required candidate = true ↔
      required.params.length = candidate.params.length ∧
        required.generics.length = candidate.generics.length ∧
        (((r.unifier substitute required candidate).signature required candidate).run []).1 =
          true := by
  unfold unifies
  split
  · rename_i hlengths
    refine iff_of_false Bool.false_ne_true fun h => ?_
    exact hlengths.elim (fun hne => hne h.1.symm) (fun hne => hne h.2.1.symm)
  · rename_i hlengths
    rw [not_or, Decidable.not_not, Decidable.not_not] at hlengths
    rw [and_iff_right hlengths.1.symm, and_iff_right hlengths.2.symm]
    rfl

/-- The public methods of a type and a name whose signature unifies with the required one. -/
def unifyingMethods (r : Registry) (ty : ImplType) (name : String) (required : Signature)
    (filter : MethodFilter) (substitute : Bool) : List (Located MethodDef) :=
  (r.methods ty (some name) (some required.arity) filter).filter fun m =>
    r.unifies substitute required m.decl.toSignature

end Registry

end Contracts
