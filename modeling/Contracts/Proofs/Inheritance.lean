import Contracts.Proofs.Flattening
import Contracts.Proofs.Resolution
import Mathlib.Data.List.Nodup

set_option autoImplicit false

/-! # Satisfaction follows inheritance

A type that satisfies a contract satisfies everything that the contract inherits from, along any
path, and binds the operations in the same way (`Registry.satisfied_of_inherits`). For this the
ancestors must be extracted whenever the contract is, and ask for nothing that it does not ask for:
an ancestor leads nowhere that the contract does not lead, also where the ancestor is reached by
several paths or leads back to the contract. -/

namespace Contracts

/-- The bindings of an operation. -/
def MatchResult.bindingsOf (m : MatchResult) (op : Operation) : List Binding :=
  m.bindings.filter (·.operation = op)

namespace Registry

variable {r : Registry} {contract ancestor : TypeIdx} {spec ancestorSpec : ContractSpec}

/-! ## What is asked for -/

theorem ancestry_subset (h : r.Inherits contract ancestor) :
    r.ancestry ancestor ⊆ r.ancestry contract := by
  intro c hc
  rw [mem_ancestry_iff] at hc ⊢
  exact h.trans hc

theorem exists_extract_of_inherits (extracted : r.extract contract = .ok spec)
    (h : r.Inherits contract ancestor) : ∃ spec', r.extract ancestor = .ok spec' := by
  have hshape := exists_extract_iff.1 ⟨spec, extracted⟩
  exact exists_extract_iff.2 fun c hc => hshape c (h.trans hc)

theorem operations_subset_of_inherits (extracted : r.extract contract = .ok spec)
    (ancestorExtracted : r.extract ancestor = .ok ancestorSpec) (h : r.Inherits contract ancestor) :
    ancestorSpec.operations ⊆ spec.operations := by
  intro op hop
  have hasked := ((flattens_of_extract ancestorExtracted).occurrences.mem_iff op).1 hop
  obtain ⟨c, hc, hown⟩ := List.mem_flatMap.1 hasked
  have hinherited := List.mem_flatMap.2 ⟨c, ancestry_subset h hc, hown⟩
  exact ((flattens_of_extract extracted).occurrences.mem_iff op).2 hinherited

/-! ## How it is bound -/

theorem filter_filterMap_resolve (config : Config) (ty : ImplType) (op : Operation)
    (ops : List Operation) : (ops.filterMap (r.resolve config ty)).filter (·.operation = op) =
      (ops.filter (· = op)).filterMap (r.resolve config ty) := by
  induction ops with
  | nil => rfl
  | cons o ops ih =>
      cases ho : r.resolve config ty o with
      | none =>
          rw [List.filterMap_cons_none ho, ih, List.filter_cons]
          split
          · rw [List.filterMap_cons_none ho]
          · rfl
      | some b =>
          have hb := operation_of_resolve ho
          rw [List.filterMap_cons_some ho, List.filter_cons, List.filter_cons, ih, hb]
          split
          · rw [List.filterMap_cons_some ho]
          · rfl

/-- An operation that a contract asks for once is bound once, and in the same way whatever else the
contract asks for. -/
theorem bindingsOf_matchSpec (config : Config) (ty : ImplType) {op : Operation}
    (nodup : spec.operations.Nodup) (mem : op ∈ spec.operations) :
    (r.matchSpec config ty spec).bindingsOf op = (r.resolve config ty op).toList := by
  have honce : spec.operations.filter (· = op) = [op] := by
    rw [List.filter_eq, List.count_eq_one_of_mem nodup mem]
    rfl
  unfold MatchResult.bindingsOf matchSpec
  rw [filter_filterMap_resolve, honce]
  cases hb : r.resolve config ty op <;> simp [hb]

/-- **Satisfaction follows inheritance.** If a contract is extracted, then so is each contract that
it inherits from, which asks for no other operations. A type that satisfies the contract satisfies
the other one, and binds each operation of that one to the same target with the same coercions. -/
theorem satisfied_of_inherits (extracted : r.extract contract = .ok spec)
    (inherits : r.Inherits contract ancestor) :
    ∃ ancestorSpec, r.extract ancestor = .ok ancestorSpec ∧
      ancestorSpec.operations ⊆ spec.operations ∧
      ∀ config ty, (r.matchSpec config ty spec).satisfied = true →
        (r.matchSpec config ty ancestorSpec).satisfied = true ∧
        ∀ op ∈ ancestorSpec.operations, ∃ b,
          (r.matchSpec config ty ancestorSpec).bindingsOf op = [b] ∧
            (r.matchSpec config ty spec).bindingsOf op = [b] := by
  obtain ⟨ancestorSpec, hancestor⟩ := exists_extract_of_inherits extracted inherits
  have hsubset := operations_subset_of_inherits extracted hancestor inherits
  refine ⟨ancestorSpec, hancestor, hsubset, fun config ty hsatisfied => ?_⟩
  have hbound := satisfied_iff.1 hsatisfied
  refine ⟨satisfied_iff.2 fun op hop => hbound op (hsubset hop), fun op hop => ?_⟩
  obtain ⟨b, hb⟩ := Option.isSome_iff_exists.1 (hbound op (hsubset hop))
  refine ⟨b, ?_, ?_⟩
  · rw [bindingsOf_matchSpec config ty (flattens_of_extract hancestor).nodup hop, hb]
    rfl
  · rw [bindingsOf_matchSpec config ty (flattens_of_extract extracted).nodup (hsubset hop), hb]
    rfl

/-! ### A diamond with a way back -/

/-- An operation without parameters and result. -/
def plainOperation (name : String) : Operation where
  name
  kind := .method
  params := []
  ret := .void

/-- A method that does nothing. -/
def plainMethod (name : String) : MethodDef where
  name
  params := []
  ret := .void
  body := fun _ _ => pure .void

/-- Files are read and written, both need them to be closed, and what is closed is a file. -/
def fileRegistry : Registry where
  types := #[
    ⟨"File", true, .contract {
      parents := [⟨1⟩, ⟨2⟩], operations := ["open", "close"].map plainOperation }⟩,
    ⟨"Readable", true, .contract { parents := [⟨3⟩], operations := [plainOperation "read"] }⟩,
    ⟨"Writable", true, .contract { parents := [⟨3⟩], operations := [plainOperation "write"] }⟩,
    ⟨"Closable", true, .contract { parents := [⟨0⟩], operations := [plainOperation "close"] }⟩,
    ⟨"LocalFile", true, .implementation false {
      members := { methods := ["open", "read", "write", "close"].map plainMethod } }⟩]

/-- What the contract of files is flattened to. -/
def fileSpec : ContractSpec :=
  ⟨⟨0⟩, "File", ["open", "close", "read", "write"].map plainOperation⟩

theorem satisfied_of_inherits_closable :
    fileRegistry.extract ⟨0⟩ = .ok fileSpec ∧ fileRegistry.Inherits ⟨0⟩ ⟨3⟩ ∧
      (fileRegistry.matchSpec {} (.named ⟨4⟩) fileSpec).satisfied = true ∧
      ∃ closable, fileRegistry.extract ⟨3⟩ = .ok closable ∧
        (fileRegistry.matchSpec {} (.named ⟨4⟩) closable).satisfied = true := by
  have h0 : fileRegistry.parents ⟨0⟩ = [⟨1⟩, ⟨2⟩] := rfl
  have h1 : fileRegistry.parents ⟨1⟩ = [⟨3⟩] := rfl
  have h2 : fileRegistry.parents ⟨2⟩ = [⟨3⟩] := rfl
  have h3 : fileRegistry.parents ⟨3⟩ = [⟨0⟩] := rfl
  have hancestry : fileRegistry.ancestry ⟨0⟩ = [⟨0⟩, ⟨1⟩, ⟨3⟩, ⟨2⟩] := by
    simp only [parents] at h0 h1 h2 h3
    simp [ancestry, walk, h0, h1, h2, h3]
  have hextract : fileRegistry.extract ⟨0⟩ = .ok fileSpec := by
    rw [extract, hancestry]
    decide +kernel
  have hup : fileRegistry.Extends ⟨0⟩ ⟨2⟩ := by simp [Extends, h0]
  have hupper : fileRegistry.Extends ⟨2⟩ ⟨3⟩ := by simp [Extends, h2]
  have hinherits : fileRegistry.Inherits ⟨0⟩ ⟨3⟩ := .tail (.single hup) hupper
  have hsatisfied : (fileRegistry.matchSpec {} (.named ⟨4⟩) fileSpec).satisfied = true := by
    decide +kernel
  obtain ⟨closable, hclosable, -, hfollows⟩ := satisfied_of_inherits hextract hinherits
  exact ⟨hextract, hinherits, hsatisfied, closable, hclosable,
    (hfollows {} (.named ⟨4⟩) hsatisfied).1⟩

end Registry

end Contracts
