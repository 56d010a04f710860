import Contracts.Proofs.Extraction
import Mathlib.Data.List.Basic
import Mathlib.Data.List.Induction

set_option autoImplicit false

/-! # What a contract is flattened to

`Registry.extract_flattens` says all there is to say about extraction, for every registry and every
position in it. The walk from the position along parents comes to an end, and extraction succeeds
exactly if everything that the position inherits from is a public contract in shape. Then the
operations are those of the contracts of the walk, each where it first occurs. Otherwise the error
is about the first contract of the walk, and its first operation, that is not in shape. -/

namespace Contracts

/-! ## First occurrences -/

/-- The elements of a list in the order in which they first occur in it. -/
structure FirstOccurrences {α : Type} [DecidableEq α] (xs ys : List α) : Prop where
  mem_iff : ∀ a, a ∈ ys ↔ a ∈ xs
  ordered : ys.Pairwise fun a b => xs.idxOf a < xs.idxOf b

section Occurrences

variable {α : Type} [DecidableEq α] {xs ys : List α}

theorem FirstOccurrences.nodup (h : FirstOccurrences xs ys) : ys.Nodup := by
  refine h.ordered.imp fun {a b} hlt heq => ?_
  rw [heq] at hlt
  exact Nat.lt_irrefl _ hlt

/-- What is added at the end of a list comes last, unless it has occurred before. -/
theorem FirstOccurrences.concat (h : FirstOccurrences xs ys) (a : α) :
    FirstOccurrences (xs ++ [a]) (if a ∈ xs then ys else ys ++ [a]) := by
  have hold : ys.Pairwise fun b c => (xs ++ [a]).idxOf b < (xs ++ [a]).idxOf c := by
    refine h.ordered.imp_of_mem fun {b c} hb hc hlt => ?_
    rwa [List.idxOf_append_of_mem ((h.mem_iff b).1 hb),
      List.idxOf_append_of_mem ((h.mem_iff c).1 hc)]
  split
  · rename_i known
    refine ⟨fun b => ?_, hold⟩
    rw [h.mem_iff, List.mem_append, List.mem_singleton]
    exact ⟨Or.inl, fun hb => hb.elim id fun heq => heq ▸ known⟩
  · rename_i new
    refine ⟨fun b => ?_, List.pairwise_append.2 ⟨hold, List.pairwise_singleton _ _, ?_⟩⟩
    · rw [List.mem_append, List.mem_append, h.mem_iff]
    · intro b hb c hc
      obtain rfl := List.mem_singleton.1 hc
      have hb' := (h.mem_iff b).1 hb
      rw [List.idxOf_append_of_mem hb', List.idxOf_append_of_notMem new]
      exact Nat.lt_of_lt_of_le (List.idxOf_lt_length_of_mem hb') (Nat.le_add_right _ _)

/-- Erasing duplicates keeps the first occurrences. -/
theorem firstOccurrences_eraseDups (xs : List α) : FirstOccurrences xs xs.eraseDups := by
  induction xs using List.reverseRecOn with
  | nil => exact ⟨by simp, by simp⟩
  | append_singleton xs a ih =>
      have hstep : (xs ++ [a]).eraseDups =
          if a ∈ xs then xs.eraseDups else xs.eraseDups ++ [a] := by
        rw [List.eraseDups_append]
        split
        · rename_i known
          simp [List.removeAll, known]
        · rename_i new
          simp [List.removeAll, new, List.eraseDups_cons]
      rw [hstep]
      exact ih.concat a

end Occurrences

/-! ## Extraction -/

namespace Registry

/-- The operations are those that the contracts of a list ask for, each where it first occurs. -/
structure Flattens (r : Registry) (order : List TypeIdx) (operations : List Operation) : Prop where
  nodup : operations.Nodup
  occurrences : FirstOccurrences (order.flatMap r.ownRequired) operations
  inShape : ∀ op ∈ operations, op.InShape

/-- The error is about the first contract of a list with which something is wrong. -/
def FirstFault (r : Registry) (order : List TypeIdx) (e : ShapeError) : Prop :=
  ∃ before c after, order = before ++ c :: after ∧ (∀ b ∈ before, r.InShape b) ∧ r.Faulty c e

theorem flattens_of_extract {r : Registry} {idx : TypeIdx} {spec : ContractSpec}
    (h : r.extract idx = .ok spec) : r.Flattens (r.ancestry idx) spec.operations := by
  have inShape := inShape_of_extract h
  obtain ⟨-, rfl⟩ := extract_eq_ok_iff.1 h
  have occurrences := firstOccurrences_eraseDups ((r.ancestry idx).flatMap r.ownRequired)
  exact ⟨occurrences.nodup, occurrences, inShape⟩

/-- A contract is extracted exactly if all that it inherits from is in shape. -/
theorem exists_extract_iff {r : Registry} {idx : TypeIdx} :
    (∃ spec, r.extract idx = .ok spec) ↔ ∀ c, r.Inherits idx c → r.InShape c := by
  simp only [extract_eq_ok_iff, mem_ancestry_iff]
  exact ⟨fun ⟨_, hshape, _⟩ => hshape, fun hshape => ⟨_, hshape, rfl⟩⟩

/-- **Extraction is exact.** From every position there is one walk along parents. Extraction
succeeds exactly if all that is inherited from is in shape, and then gives the operations of the
walk in the order of their first occurrences; otherwise it gives the first fault of the walk. -/
theorem extract_flattens (r : Registry) (idx : TypeIdx) : ∃ order,
    (∀ walk, r.FirstArrivals [] [idx] walk ↔ walk = order) ∧
      ((∃ spec, r.extract idx = .ok spec) ↔ ∀ c, r.Inherits idx c → r.InShape c) ∧
      (∀ spec, r.extract idx = .ok spec →
        spec.contract = idx ∧ r.Flattens order spec.operations) ∧
      ∀ e, r.extract idx = .error e → r.FirstFault order e := by
  refine ⟨r.ancestry idx, fun walk => firstArrivals_iff, exists_extract_iff, ?_, ?_⟩
  · intro spec h
    exact ⟨contract_of_extract h, flattens_of_extract h⟩
  · intro e h
    exact fault_of_extract h

end Registry

end Contracts
