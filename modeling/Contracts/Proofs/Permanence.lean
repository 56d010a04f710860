import Contracts.Proofs.CallEffects
import Contracts.Proofs.Extraction
import Contracts.StandardContract

set_option autoImplicit false

/-! # Declared contracts stay

A contract cannot be extended, so once it is declared it is never any different. Every call keeps
the contracts that are there (`Registry.Effect.retains`), and so a contract that is extracted once
is extracted to the same operations ever after (`Registry.extract_of_retains`). -/

namespace Contracts

namespace Registry

/-- Every contract that is declared in the one registry is declared in the other, just so. -/
def Retains (r r' : Registry) : Prop :=
  ∀ idx d, r.type? idx = some d → d.isContract = true → r'.type? idx = some d

theorem Retains.refl (r : Registry) : r.Retains r := fun _ _ h _ => h

theorem Retains.trans {a b c : Registry} (hab : a.Retains b) (hbc : b.Retains c) : a.Retains c :=
  fun idx d h contract => hbc idx d (hab idx d h contract) contract

theorem Retains.of_steps {r r' : Registry} (h : Relation.ReflTransGen Retains r r') :
    r.Retains r' := by
  induction h with
  | refl => exact .refl r
  | tail _ hstep ih => exact ih.trans hstep

/-- A change that keeps the contracts, whether it succeeds or not. -/
abbrev Keeping {α : Type} (change : Change α) : Prop := Along id Retains change

theorem Keeping.retains {α : Type} {change : Change α} (h : Keeping change) (r : Registry) :
    r.Retains (endState change r) := .of_steps (h r)

/-! ## Changes that keep the contracts -/

variable {r r' : Registry} {idx : TypeIdx}

/-- No call changes a contract: extensions are of other types. -/
theorem Effect.retains {call : Call} {result : Except RegistryError (Option TypeIdx)}
    (effect : r.Effect call result r') : r.Retains r' := by
  intro idx d known contract
  obtain ⟨d', hd', hsame⟩ := effect.exists_type? (fun d d' => d.isContract = true → d' = d)
    (fun _ _ => rfl) (fun _ _ d _ other contract => by simp [other] at contract) known
  rw [hd', hsame contract]

theorem IsCall.keeping {α : Type} {change : Change α} (h : IsCall change) : Keeping change :=
  h.along fun r call => (r.effect call).retains

/-! ## Extraction after a change -/

/-- A contract that is extracted is extracted to the same after any change that keeps the
contracts. -/
theorem extract_of_retains {spec : ContractSpec} (h : r.Retains r')
    (extracted : r.extract idx = .ok spec) : r'.extract idx = .ok spec := by
  obtain ⟨hshape, rfl⟩ := extract_eq_ok_iff.1 extracted
  -- All that extraction looks at are contracts, so all of it has stayed.
  have hsame : ∀ c ∈ r.ancestry idx, ∃ decl, r.type? c = some decl ∧ r'.type? c = some decl := by
    intro c hc
    obtain ⟨decl, hdecl, contract, -, -⟩ := hshape c hc
    exact ⟨decl, hdecl, h c decl hdecl contract⟩
  have hancestry : r'.ancestry idx = r.ancestry idx := by
    refine walk_congr fun c hc => ?_
    obtain ⟨decl, hdecl, hdecl'⟩ := hsame c hc
    rw [successors_of_known hdecl, successors_of_known hdecl']
  have hself : idx ∈ r.ancestry idx := mem_ancestry_iff.2 .refl
  obtain ⟨decl, hdecl, hdecl'⟩ := hsame idx hself
  refine extract_eq_ok_iff.2 ⟨fun c hc => ?_, ?_⟩
  · rw [hancestry] at hc
    obtain ⟨decl, hdecl, hrest⟩ := hshape c hc
    obtain ⟨decl', hdecl', hlater⟩ := hsame c hc
    obtain rfl := Option.some.inj (hdecl.symm.trans hdecl')
    exact ⟨decl, hlater, hrest⟩
  · have hasked : (r'.ancestry idx).flatMap r'.ownRequired =
        (r.ancestry idx).flatMap r.ownRequired := by
      rw [hancestry]
      refine List.flatMap_congr fun c hc => ?_
      obtain ⟨decl, hdecl, hdecl'⟩ := hsame c hc
      rw [ownRequired, ownRequired, hdecl, hdecl']
    rw [hasked, typeName, typeName, hdecl, hdecl']

end Registry

/-! ## Standard contracts -/

namespace StandardContract

/-- Declaring a standard contract comes to a call when its name is known. -/
def call (c : StandardContract) (r : Registry) : Registry.Call :=
  .contractOrDeclare (c.name r) fun _ => { operations := c.operations }

theorem declare_eq (c : StandardContract) (r : Registry) : c.declare r =
    Registry.contractOrDeclare (c.name r) (fun _ => { operations := c.operations }) r := by
  have hget : (get : Registry.Change Registry) r = .ok r r := rfl
  rw [declare, bind_of_ok hget]

theorem endState_declare (c : StandardContract) (r : Registry) :
    endState c.declare r = r.after (c.call r) := by
  rw [endState, c.declare_eq]
  exact (endState_map some r).symm

theorem answer_call (c : StandardContract) (r : Registry) :
    r.answer (c.call r) = (outcome c.declare r).map some := by
  rw [outcome, c.declare_eq]
  exact outcome_map some r

theorem isCall_declare (c : StandardContract) : Registry.IsCall c.declare :=
  fun r => ⟨c.call r, c.endState_declare r⟩

theorem keeping_declare (c : StandardContract) : Registry.Keeping c.declare :=
  c.isCall_declare.keeping

end StandardContract

end Contracts
