import Contracts.Proofs.Coercibility
import Contracts.Proofs.Extraction

set_option autoImplicit false

/-! # Generic parameters in scope

A type of an operation mentions a generic parameter by its position in the operation's list, which
may be too short for it. A contract is extracted only if the parameters and the result of each of
its operations stay inside the list. Bounds on generic parameters are not looked at there, so one of
them may still mention what is not declared (`Registry.extract_of_unscoped_bound`).

It comes out when types are matched: a generic parameter of the operation that the comparison of
signatures gets to is paired with one of the method, and only declared ones are. So an operation
that involves an undeclared generic parameter is bound to no method at all, not even to a copy of
itself (`Registry.scoped_of_extract`). -/

namespace Contracts

namespace Signature

/-- Some type of the signature is the generic parameter: that of a parameter, the result, or a
bound. -/
def Mentions (s : Signature) (i : Nat) : Prop :=
  .param i ∈ s.params ∨ s.ret = .param i ∨ ∃ p ∈ s.generics, .bound (.param i) ∈ p.constraints

/-- The generic parameters that the parameters and the result lead to, directly or through bounds on
those that they lead to. -/
inductive Involves (s : Signature) : Nat → Prop
  | param {i : Nat} (mentioned : .param i ∈ s.params) : s.Involves i
  | ret {i : Nat} (mentioned : s.ret = .param i) : s.Involves i
  | bound {i j : Nat} {p : GenericParam} (involved : s.Involves i)
      (declared : s.generics[i]? = some p) (mentioned : .bound (.param j) ∈ p.constraints) :
      s.Involves j

theorem Involves.mentions {s : Signature} {i : Nat} (h : s.Involves i) : s.Mentions i := by
  cases h with
  | param mentioned => exact Or.inl mentioned
  | ret mentioned => exact Or.inr (Or.inl mentioned)
  | bound _ declared mentioned =>
      exact Or.inr (Or.inr ⟨_, List.mem_of_getElem? declared, mentioned⟩)

end Signature

namespace Unifier

variable {u : Unifier} {pairs : Pairing} {required candidate : Signature} {i j : Nat}

theorem FitsResult.exists_paired {ret : TypeRef} (h : u.FitsResult pairs (.param i) ret) :
    ∃ j, (i, j) ∈ pairs := by
  cases h with
  | param paired => exact ⟨_, paired⟩
  | concrete hrequired => exact absurd hrequired (by simp [TypeRef.isParam])

theorem FitsAt.exists_paired {ty : TypeRef} (h : u.FitsAt pairs (.param i) ty) :
    ∃ j, (i, j) ∈ pairs := by
  cases h with
  | param paired => exact ⟨_, paired⟩
  | concrete hrequired => exact absurd hrequired (by simp [TypeRef.isParam])

/-- A solution pairs every generic parameter that the required signature involves. -/
theorem Solution.exists_paired (solution : u.Solution pairs required candidate)
    (generics : u.required = required.generics) (involved : required.Involves i) :
    ∃ j, (i, j) ∈ pairs := by
  induction involved with
  | param mentioned =>
      obtain ⟨place, hlt, hplace⟩ := List.mem_iff_getElem.1 mentioned
      have hfits := (List.forall₂_iff_get.1 solution.params).2 place hlt
        (solution.params.length_eq ▸ hlt)
      rw [List.get_eq_getElem, hplace] at hfits
      exact hfits.exists_paired
  | ret mentioned => exact (mentioned ▸ solution.ret).exists_paired
  | bound _ declared mentioned ih =>
      obtain ⟨j, hj⟩ := ih
      obtain ⟨p, q, hp, -, -, hcounterparts⟩ := solution.covers _ j hj
      rw [generics, declared] at hp
      obtain rfl := Option.some.inj hp
      obtain ⟨b, -, hb⟩ := hcounterparts _ mentioned
      obtain ⟨k, -, hk⟩ := hb.exists_paired
      exact ⟨k, hk⟩

/-- What is paired in a solution is declared. -/
theorem Solution.lt_of_mem (solution : u.Solution pairs required candidate)
    (paired : (i, j) ∈ pairs) : i < u.required.length := by
  obtain ⟨p, q, hp, -⟩ := solution.covers i j paired
  exact (List.getElem?_eq_some_iff.1 hp).1

end Unifier

namespace Registry

variable {r : Registry} {config : Config} {ty : ImplType} {op : Operation}

/-- When the operation is compared with the method, no generic parameter is tried a second time for
a bound. -/
def TriesOnce (r : Registry) (config : Config) (op : Operation) (m : MethodDef) : Prop :=
  ∀ p ∈ op.generics, ∀ q ∈ m.generics,
    (r.unifier config.substituteParams op.toSignature m.toSignature).TriesOnce
      p.constraints q.constraints

/-- A method that unifies declares a counterpart of whatever the operation involves, so the
operation has declared it. -/
theorem lt_of_mem_candidates {m : Located MethodDef} (h : m ∈ r.candidates config ty op)
    (once : r.TriesOnce config op m.decl) {i : Nat} (involved : op.Involves i) :
    i < op.generics.length := by
  obtain ⟨-, -, hunifies⟩ := mem_candidates_iff.1 h
  obtain ⟨length, -, hfits⟩ := unifies_eq_true_iff.1 hunifies
  obtain ⟨pairs, solution⟩ := (r.unifier config.substituteParams op.toSignature
    m.decl.toSignature).exists_solution once length hfits
  obtain ⟨j, hj⟩ := solution.exists_paired rfl involved
  exact solution.lt_of_mem hj

theorem resolve_eq_none_of_unscoped (asks : op.AsksMethod)
    (once : ∀ m ∈ r.candidates config ty op, r.TriesOnce config op m.decl) {i : Nat}
    (involved : op.Involves i) (undeclared : op.generics.length ≤ i) :
    r.resolve config ty op = none := by
  rw [← Option.not_isSome_iff_eq_none, isSome_resolve_iff_candidate asks]
  rintro ⟨m, hm⟩
  exact absurd (lt_of_mem_candidates hm (once m hm) involved) (Nat.not_lt.2 undeclared)

/-- **Extracted operations stay in scope, or are bound to nothing.** The parameters and the result
of each operation of an extracted contract mention only generic parameters that the operation
declares. What is mentioned and not declared stands in a bound; and if the parameters and the result
lead to it, then no type, in any registry, has a method that the operation is bound to, as long as
the comparison tries nothing twice. -/
theorem scoped_of_extract {contract : TypeIdx} {spec : ContractSpec}
    (h : r.extract contract = .ok spec) : ∀ op ∈ spec.operations,
      (∀ i, .param i ∈ op.params ∨ op.ret = .param i → i < op.generics.length) ∧
      ∀ i, op.Mentions i → op.generics.length ≤ i →
        (∃ p ∈ op.generics, .bound (.param i) ∈ p.constraints) ∧
        (op.Involves i → op.AsksMethod → ∀ (r' : Registry) config ty,
          (∀ m ∈ r'.candidates config ty op, r'.TriesOnce config op m.decl) →
            r'.resolve config ty op = none) := by
  intro op hop
  have hscoped := (inShape_of_extract h op hop).declared
  refine ⟨hscoped, fun i hmentions hundeclared => ⟨?_, ?_⟩⟩
  · rcases hmentions with hparam | hret | hbound
    · exact absurd (hscoped i (Or.inl hparam)) (Nat.not_lt.2 hundeclared)
    · exact absurd (hscoped i (Or.inr hret)) (Nat.not_lt.2 hundeclared)
    · exact hbound
  · intro hinvolves asks r' config ty once
    exact resolve_eq_none_of_unscoped asks once hinvolves hundeclared

/-! ### A bound by a generic parameter that is not there -/

/-- Sort things of a type that is bounded by a second generic parameter; there is only one. -/
def sortOperation : Operation where
  name := "sort"
  kind := .method
  params := [.param 0]
  ret := .void
  generics := [⟨"T", [.bound (.param 1)]⟩]

/-- The operation, copied literally. -/
def sortMethod : MethodDef where
  toSignature := sortOperation.toSignature
  name := "sort"
  body := fun _ _ => pure .null

/-- A contract that asks for the operation, and a class with the copy. -/
def sorterRegistry : Registry where
  types := #[
    ⟨"Sorter", true, .contract { operations := [sortOperation] }⟩,
    ⟨"Table", true, .implementation false { members := { methods := [sortMethod] } }⟩]

theorem extract_sorter :
    sorterRegistry.extract ⟨0⟩ = .ok ⟨⟨0⟩, "Sorter", [sortOperation]⟩ := by
  rw [extract, ancestry_of_parents_eq_nil rfl]
  rfl

theorem scoped_of_extract_sorter :
    sorterRegistry.extract ⟨0⟩ = .ok ⟨⟨0⟩, "Sorter", [sortOperation]⟩ ∧
      0 < sortOperation.generics.length ∧
      sorterRegistry.resolve {} (.named ⟨1⟩) sortOperation = none := by
  obtain ⟨hscoped, hunscoped⟩ := scoped_of_extract extract_sorter sortOperation List.mem_cons_self
  have hparam : sortOperation.Involves 0 := .param (List.mem_singleton.2 rfl)
  have hbound : sortOperation.Involves 1 := .bound hparam rfl (List.mem_singleton.2 rfl)
  refine ⟨extract_sorter, hscoped 0 (by decide), ?_⟩
  refine (hunscoped 1 hbound.mentions (by decide)).2 hbound (Or.inl rfl) _ _ _ ?_
  intro m hm
  obtain ⟨hmethod, -⟩ := mem_candidates_iff.1 hm
  obtain rfl := List.mem_singleton.1 hmethod
  have hdistinct : ∀ q ∈ sortMethod.generics, (paramBounds q.constraints).Nodup := by decide
  exact fun _ _ q hq => Or.inl (hdistinct q hq)

/-- Bounds are extracted unseen: the contract asks for an operation that mentions a second generic
parameter and declares one, and the class that copies the operation does not provide it. -/
theorem extract_of_unscoped_bound :
    ∃ spec, sorterRegistry.extract ⟨0⟩ = .ok spec ∧
      ∃ op ∈ spec.operations, op.Mentions 1 ∧ op.generics.length = 1 ∧
        sorterRegistry.resolve {} (.named ⟨1⟩) op = none := by
  refine ⟨_, extract_sorter, sortOperation, List.mem_cons_self, ?_, rfl, ?_⟩
  · exact Or.inr (Or.inr ⟨_, List.mem_singleton.2 rfl, List.mem_singleton.2 rfl⟩)
  · rw [resolve_of_asksMethod (Or.inl rfl)]
    decide +kernel

end Registry

end Contracts
