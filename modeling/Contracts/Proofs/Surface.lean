import Contracts.Proofs.Flattening
import Contracts.Proofs.Selection

set_option autoImplicit false

/-! # What an adapter exposes

Matching deals the operations of a contract out to bindings and issues, and an adapter type has one
slot for each binding. So the adapters of a satisfied match have exactly the operations of the
contract, in its order, each with the binding found for it, and under each name the positions of the
slots of that name (`Registry.exposes_of_extract`). -/

namespace Contracts

namespace Registry

variable {r : Registry} {config : Config} {ty : ImplType} {spec : ContractSpec}

/-- If every operation is bound, then the bindings are those of the operations one by one. -/
theorem forall₂_bindings (satisfied : (r.matchSpec config ty spec).satisfied = true) :
    List.Forall₂ (fun op b => r.resolve config ty op = some b) spec.operations
      (r.matchSpec config ty spec).bindings := by
  have hbound := satisfied_iff.1 satisfied
  unfold matchSpec
  generalize spec.operations = ops at hbound ⊢
  induction ops with
  | nil => exact .nil
  | cons op ops ih =>
      obtain ⟨b, hb⟩ := Option.isSome_iff_exists.1 (hbound op List.mem_cons_self)
      rw [List.filterMap_cons_some hb]
      exact .cons hb (ih fun op' hop' => hbound op' (List.mem_cons_of_mem _ hop'))

end Registry

/-! ## Slots and their names -/

/-- The adapter type has one slot for each of the operations, and can find it by its name. -/
structure AdapterType.Exposes (a : AdapterType) (r : Registry) (config : Config) (ty : ImplType)
    (ops : List Operation) : Prop where
  /-- The slots are those of the operations one by one, each made from its operation's binding. -/
  slots : List.Forall₂ (fun op slot => slot.name = op.slotName ∧ slot.binding.operation = op ∧
    r.resolve config ty op = some slot.binding) ops a.slots
  /-- No binding of the match is left out, or used for another slot. -/
  bindings : a.slots.map (·.binding) = a.result.bindings
  /-- What is listed under a name are the positions of the slots of that name, in ascending
  order. -/
  listed : ∀ name positions, a.index.lookup name = some positions → positions.Pairwise (· < ·) ∧
    ∀ i, i ∈ positions ↔ ∃ slot, a.slots[i]? = some slot ∧ slot.name = name
  /-- Nothing is listed under other names. -/
  unlisted : ∀ name, a.index.lookup name = none ↔ ∀ slot ∈ a.slots, slot.name ≠ name

namespace AdapterType

theorem lookup_index_synthesize (n : Nat) (result : MatchResult) (name : String) :
    (synthesize n result).index.lookup name =
      if SlotIndex.positions ((synthesize n result).slots.map (·.name)) name = [] then none
      else some (SlotIndex.positions ((synthesize n result).slots.map (·.name)) name) :=
  SlotIndex.lookup_ofNames _ name

theorem listed_synthesize {n : Nat} {result : MatchResult} {name : String} {positions : List Nat}
    (h : (synthesize n result).index.lookup name = some positions) :
    positions.Pairwise (· < ·) ∧ ∀ i, i ∈ positions ↔
      ∃ slot, (synthesize n result).slots[i]? = some slot ∧ slot.name = name := by
  rw [lookup_index_synthesize, Option.ite_none_left_eq_some] at h
  obtain ⟨-, hpositions⟩ := h
  obtain rfl := Option.some.inj hpositions
  refine ⟨SlotIndex.positions_ascending _ name, fun i => ?_⟩
  rw [SlotIndex.mem_positions_iff, List.getElem?_map, Option.map_eq_some_iff]

theorem unlisted_synthesize (n : Nat) (result : MatchResult) (name : String) :
    (synthesize n result).index.lookup name = none ↔
      ∀ slot ∈ (synthesize n result).slots, slot.name ≠ name := by
  rw [lookup_index_synthesize, ite_eq_left_iff, SlotIndex.positions_eq_nil_iff]
  simp

end AdapterType

namespace Registry

variable {r : Registry} {contract : TypeIdx} {spec : ContractSpec}

/-- **An adapter exposes its contract.** An extracted contract asks for each operation once.
Matching a type against it deals the operations out to bindings and issues, both in the contract's
order, and is satisfied exactly if there is no issue. Then every adapter type made from the match
has exactly the contract's operations. -/
theorem exposes_of_extract (extracted : r.extract contract = .ok spec) (config : Config)
    (ty : ImplType) :
    spec.operations.Nodup ∧
      (∃ missing, (r.matchSpec config ty spec).DealsOut r config ty spec.operations missing) ∧
      ((r.matchSpec config ty spec).satisfied = true ↔ (r.matchSpec config ty spec).issues = []) ∧
      ((r.matchSpec config ty spec).satisfied = true → ∀ n,
        (AdapterType.synthesize n (r.matchSpec config ty spec)).Exposes r config ty
          spec.operations) := by
  refine ⟨(flattens_of_extract extracted).nodup, ⟨_, dealsOut_matchSpec config ty spec⟩,
    satisfied_iff_issues_eq_nil, fun hsatisfied n => ⟨?_, ?_, fun _ _ =>
      AdapterType.listed_synthesize, AdapterType.unlisted_synthesize n _⟩⟩
  · rw [AdapterType.slots_synthesize, List.forall₂_map_right_iff]
    refine (forall₂_bindings hsatisfied).imp fun op b hresolve => ?_
    have hoperation := operation_of_resolve hresolve
    exact ⟨congrArg Operation.slotName hoperation, hoperation, hresolve⟩
  · rw [AdapterType.slots_synthesize, List.map_map]
    exact List.map_id _

/-! ### Overloads, one of them a property -/

/-- Two ways of reading a label that are called by one name, and two ways of putting something. -/
def shelfOperations : List Operation :=
  [{ name := "get_label", kind := .method, params := [], ret := .str },
    { name := "label", kind := .getter, params := [], ret := .str },
    { name := "put", kind := .method, params := [.builtin (.int .i32)], ret := .void },
    { name := "put", kind := .method, params := [.str], ret := .void }]

/-- A method that does nothing. -/
def shelfMethod (name : String) (params : List TypeRef) (ret : TypeRef) : MethodDef where
  name
  params
  ret
  body := fun _ _ => pure .null

/-- A contract that asks for these operations, and a class that has them in another order. -/
def shelfRegistry : Registry where
  types := #[
    ⟨"Shelf", true, .contract { operations := shelfOperations }⟩,
    ⟨"Crate", true, .implementation false {
      members := {
        methods := [shelfMethod "put" [.str] .void,
          shelfMethod "put" [.builtin (.int .i64)] .void, shelfMethod "get_label" [] .str]
        properties := [.ofField "label" .str] } }⟩]

theorem exposes_of_extract_shelf :
    let lax : Config := { substituteParams := true }
    shelfRegistry.extract ⟨0⟩ = .ok ⟨⟨0⟩, "Shelf", shelfOperations⟩ ∧
      (shelfRegistry.matchSpec lax (.named ⟨1⟩) ⟨⟨0⟩, "Shelf", shelfOperations⟩).satisfied = true ∧
      (AdapterType.synthesize 7 (shelfRegistry.matchSpec lax (.named ⟨1⟩)
        ⟨⟨0⟩, "Shelf", shelfOperations⟩)).Exposes shelfRegistry lax (.named ⟨1⟩)
          shelfOperations := by
  intro lax
  have hextract : shelfRegistry.extract ⟨0⟩ = .ok ⟨⟨0⟩, "Shelf", shelfOperations⟩ := by
    rw [extract, ancestry_of_parents_eq_nil rfl]
    decide +kernel
  have hsatisfied : (shelfRegistry.matchSpec lax (.named ⟨1⟩)
      ⟨⟨0⟩, "Shelf", shelfOperations⟩).satisfied = true := by
    decide +kernel
  obtain ⟨-, -, -, hexposes⟩ := exposes_of_extract hextract lax (.named ⟨1⟩)
  exact ⟨hextract, hsatisfied, hexposes hsatisfied 7⟩

end Registry

end Contracts
