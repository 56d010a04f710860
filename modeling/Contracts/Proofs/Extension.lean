import Contracts.Proofs.CallEffects
import Contracts.Proofs.Extraction
import Contracts.Proofs.Growth

set_option autoImplicit false

/-! # Extensions break no match

Types may be given further methods, operators and conversions at any time. Each such extension makes
the registry grow, also one of a type that cannot be extended, so whatever is satisfied once stays
satisfied (`Registry.satisfied_of_extendAll`): a match that was remembered is never out of date. -/

namespace Contracts

/-- Methods, operators and conversions to be attached to a type. -/
structure Addition where
  methods : List MethodDef := []
  operators : List OperatorDef := []
  conversions : List ConversionDef := []

/-- What is said to attach them: nothing of a base, contracts, properties or visibility. -/
def Addition.toDecl (a : Addition) : Registry.ImplementationDecl where
  members :=
    { methods := a.methods, operators := a.operators, conversions := a.conversions }

/-- An extension of a type. What is attached may mention the type itself. -/
inductive Extension
  | declared (idx : TypeIdx) (add : TypeRef → Addition)
  | builtin (b : Builtin) (add : TypeRef → Addition)

/-- The registry after an extension, whether that succeeds or not. -/
def Extension.apply (r : Registry) : Extension → Registry
  | .declared idx add => endState (Registry.extendType idx fun self => (add self).toDecl) r
  | .builtin b add => r.extendBuiltin b fun self => (add self).toDecl

theorem Members.grows_append (ms : Members) (a : Addition) : ms.Grows (ms ++ a.toDecl.members) where
  methods := List.prefix_append _ _
  operators := List.prefix_append _ _
  conversions := List.prefix_append _ _
  properties := List.append_nil _

namespace Registry

variable {r : Registry}

/-- The registry after some extensions, one after the other. -/
def extendAll (r : Registry) (extensions : List Extension) : Registry :=
  extensions.foldl Extension.apply r

theorem grows_extendBuiltin (b : Builtin) (add : TypeRef → Addition) :
    r.Grows (r.extendBuiltin b fun self => (add self).toDecl) := by
  refine ⟨rfl, fun idx d hd => ⟨d, hd, .refl d⟩, fun c => ?_⟩
  simp only [extendBuiltin, intern]
  split
  · rename_i same
    subst same
    exact Members.grows_append _ _
  · exact .refl _

/-- A class or struct with more members is the same in all else. -/
theorem grows_addTo {d : TypeDef} (other : d.isContract = false) (a : Addition) :
    d.Grows (a.toDecl.addTo d) := by
  obtain ⟨name, isPublic, body⟩ := d
  obtain ⟨isStruct, impl, rfl⟩ := TypeDef.isContract_eq_false_iff.1 other
  refine ⟨rfl, Bool.and_true _, rfl, rfl, List.append_nil _, rfl, rfl, ?_⟩
  exact Members.grows_append impl.members a

theorem Effect.grows {r' : Registry} {idx : TypeIdx} {add : TypeRef → Addition}
    {result : Except RegistryError (Option TypeIdx)}
    (effect : r.Effect (.extendType idx fun self => (add self).toDecl) result r') :
    r.Grows r' where
  size := by
    cases effect with
    | declared defines => exact nomatch defines
    | extended => exact Array.size_modify
    | failed => rfl
  types _ _ known := effect.exists_type? TypeDef.Grows .refl (fun at_ decl d same other => by
    obtain ⟨rfl, rfl⟩ := Call.extendType.inj same
    exact grows_addTo other (add (.named idx))) known
  builtins := by
    cases effect with
    | declared defines => exact nomatch defines
    | extended | failed => exact fun _ => .refl _

theorem grows_extendType (idx : TypeIdx) (add : TypeRef → Addition) :
    r.Grows (endState (extendType idx fun self => (add self).toDecl) r) := by
  have hafter := endState_map (m := extendType idx fun self => (add self).toDecl)
    (fun _ => (none : Option TypeIdx)) r
  rw [← hafter]
  exact (r.effect (.extendType idx fun self => (add self).toDecl)).grows

theorem grows_extendAll (extensions : List Extension) : r.Grows (r.extendAll extensions) := by
  induction extensions generalizing r with
  | nil => exact .refl r
  | cons e extensions ih =>
      have hfirst : r.Grows (e.apply r) := by
        cases e with
        | declared idx add => exact grows_extendType idx add
        | builtin b add => exact grows_extendBuiltin b add
      exact hfirst.trans ih

/-- **Extensions break no match.** A type that satisfies a contract still does after any extensions
of any types, by methods, operators and conversions; the contract itself asks for the same. -/
theorem satisfied_of_extendAll {config : Config} {ty : ImplType} {contract : TypeIdx}
    {spec : ContractSpec} (extracted : r.extract contract = .ok spec)
    (satisfied : (r.matchSpec config ty spec).satisfied = true) (extensions : List Extension) :
    (r.extendAll extensions).extract contract = .ok spec ∧
      ((r.extendAll extensions).matchSpec config ty spec).satisfied = true := by
  have hgrows := r.grows_extendAll extensions
  refine ⟨(hgrows.extract contract).trans extracted, satisfied_iff.2 fun op hop => ?_⟩
  exact hgrows.isSome_resolve (satisfied_iff.1 satisfied op hop)

/-! ### An operator before the primitive one -/

/-- A number of 32 bits plus one of 32 bits. -/
def plusOperation : Operation where
  name := "plus"
  kind := .operator .add .left
  params := [.builtin (.int .i32)]
  ret := .builtin (.int .i32)

/-- A contract that asks for a sum. -/
def sumRegistry : Registry where
  types := #[⟨"Summable", true, .contract { operations := [plusOperation] }⟩]

/-- An operator that the operands have to be widened for. -/
def wideSum : OperatorDef where
  op := .add
  left := .builtin (.int .i64)
  right := .builtin (.int .i64)
  ret := .builtin (.int .i32)
  body := fun _ _ => pure .void

theorem satisfied_of_extendAll_sum :
    let extensions : List Extension :=
      [.builtin (.int .i32) fun _ => { operators := [wideSum] }, .declared ⟨0⟩ fun _ => {}]
    sumRegistry.extract ⟨0⟩ = .ok ⟨⟨0⟩, "Summable", [plusOperation]⟩ ∧
      (sumRegistry.matchSpec {} (.builtin (.int .i32)) ⟨⟨0⟩, "Summable", [plusOperation]⟩).satisfied
        = true ∧
      ((sumRegistry.extendAll extensions).matchSpec {} (.builtin (.int .i32))
        ⟨⟨0⟩, "Summable", [plusOperation]⟩).satisfied = true := by
  intro extensions
  have hextract : sumRegistry.extract ⟨0⟩ = .ok ⟨⟨0⟩, "Summable", [plusOperation]⟩ := by
    rw [extract, ancestry_of_parents_eq_nil rfl]
    rfl
  have hsatisfied : (sumRegistry.matchSpec {} (.builtin (.int .i32))
      ⟨⟨0⟩, "Summable", [plusOperation]⟩).satisfied = true := by
    decide +kernel
  exact ⟨hextract, hsatisfied, (satisfied_of_extendAll hextract hsatisfied extensions).2⟩

end Registry

end Contracts
