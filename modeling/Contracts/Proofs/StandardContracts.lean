import Contracts.Proofs.Permanence

set_option autoImplicit false

/-! # Declaring standard contracts

A standard contract is declared under a name made from its type arguments when it is first needed.
As long as nothing else has that name, asking for it gives a contract of exactly its operations,
declared now or before, and the types that were there are left as they are
(`StandardContract.declare_cases`). -/

namespace Contracts

namespace Registry

/-! ## Types that stay -/

/-- The types of the one registry are also in the other, just as they are. -/
structure IsWithin (r r' : Registry) : Prop where
  types : ∀ idx d, r.type? idx = some d → r'.type? idx = some d
  builtins : r'.builtinMembers = r.builtinMembers

variable {r r' : Registry} {idx : TypeIdx}

theorem IsWithin.refl (r : Registry) : r.IsWithin r := ⟨fun _ _ h => h, rfl⟩

theorem IsWithin.trans {a b c : Registry} (hab : a.IsWithin b) (hbc : b.IsWithin c) :
    a.IsWithin c :=
  ⟨fun idx d h => hbc.types idx d (hab.types idx d h), hbc.builtins.trans hab.builtins⟩

/-- Types that are there keep their names as long as they stay. -/
theorem typeName_of_known (types : ∀ idx d, r.type? idx = some d → r'.type? idx = some d)
    {ref : TypeRef} (known : ∀ idx, ref = .named idx → ∃ d, r.type? idx = some d) :
    r'.typeName ref = r.typeName ref := by
  cases ref with
  | named idx =>
      obtain ⟨d, hd⟩ := known idx rfl
      rw [typeName, types idx d hd, typeName, hd]
  | builtin | param => rfl

/-- A type that may be used is there. -/
theorem exists_type?_of_isPublic (h : r.isPublic (.named idx) = true) :
    ∃ d, r.type? idx = some d ∧ d.isPublic = true :=
  (Option.any_eq_true _ _).1 h

namespace IsWithin

variable {ty : ImplType}

theorem isPublic (h : r.IsWithin r') (hty : r.isPublic ty = true) : r'.isPublic ty = true := by
  cases ty with
  | builtin b => rfl
  | named idx =>
      obtain ⟨d, hd, hpublic⟩ := exists_type?_of_isPublic hty
      rw [Registry.isPublic, h.types idx d hd]
      exact hpublic

theorem members? (h : r.IsWithin r') (hty : r.isPublic ty = true) :
    r'.members? ty = r.members? ty := by
  cases ty with
  | builtin b => rw [Registry.members?, h.builtins, Registry.members?]
  | named idx =>
      obtain ⟨d, hd, -⟩ := exists_type?_of_isPublic hty
      rw [Registry.members?, h.types idx d hd, Registry.members?, hd]

theorem typeName_of_isPublic (h : r.IsWithin r') (hty : r.isPublic ty = true) :
    r'.typeName ty.toRef = r.typeName ty.toRef := by
  refine typeName_of_known h.types fun idx hidx => ?_
  cases ty with
  | builtin b => simp [ImplType.toRef] at hidx
  | named idx' =>
      obtain rfl := TypeRef.named.inj hidx
      obtain ⟨d, hd, -⟩ := exists_type?_of_isPublic hty
      exact ⟨d, hd⟩

end IsWithin

theorem isWithin_of_push {d : TypeDef} (types : r'.types = r.types.push d)
    (builtins : r'.builtinMembers = r.builtinMembers) : r.IsWithin r' :=
  ⟨fun _ _ known => type?_of_push types known, builtins⟩

end Registry

/-! ## Standard contracts -/

namespace StandardContract

/-- The type arguments of the contract. -/
def args : StandardContract → List TypeRef
  | .castableTo target | .implicitlyConvertibleTo target => [target]
  | .addable input output => [input, output]
  | .concatable | .parsable | .stringable => []

/-- The contract goes by one name as long as its arguments do. -/
theorem name_congr {c : StandardContract} {r r' : Registry}
    (h : ∀ ty ∈ c.args, r'.typeName ty = r.typeName ty) : c.name r' = c.name r := by
  cases c with
  | castableTo target | implicitlyConvertibleTo target =>
      unfold name
      dsimp only
      rw [h target List.mem_cons_self]
  | addable input output =>
      unfold name
      dsimp only
      rw [h input List.mem_cons_self, h output (by simp [args])]
  | concatable | parsable | stringable => rfl

/-- How the contract is declared. -/
def definition (c : StandardContract) (r : Registry) : TypeDef :=
  ⟨c.name r, true, .contract { operations := c.operations }⟩

/-- No type but the contract itself has the name that the contract has now. -/
def Unclaimed (c : StandardContract) (r : Registry) : Prop :=
  ∀ idx, r.byName? (c.name r) = some idx → r.type? idx = some (c.definition r)

variable {c : StandardContract} {r : Registry} {idx : TypeIdx}

theorem unclaimed_of_byName?_eq_none (h : r.byName? (c.name r) = none) : c.Unclaimed r :=
  fun _ hidx => absurd (hidx.symm.trans h) (by simp)

/-- Declaring a contract that is there does nothing. -/
theorem declare_of_find? (h : c.find? r = some idx) : c.declare r = .ok idx r := by
  obtain ⟨idx', hname, hrest⟩ := Option.bind_eq_some_iff.1 h
  obtain ⟨d, hd, hcontract⟩ := Option.bind_eq_some_iff.1 hrest
  obtain ⟨contract, hidx⟩ := Option.ite_none_right_eq_some.1 hcontract
  obtain rfl := Option.some.inj hidx
  rw [declare_eq, Registry.contractOrDeclare_of_known hname hd contract]

/-- A contract whose name is not taken is there or is declared after all other types, if there is
room. -/
theorem declare_cases (unclaimed : c.Unclaimed r) :
    (∃ idx r', c.declare r = .ok idx r' ∧ r.IsWithin r' ∧ r'.type? idx = some (c.definition r) ∧
      (r'.types = r.types ∨
        r.byName? (c.name r) = none ∧ r'.types = r.types.push (c.definition r))) ∨
      UInt32.size ≤ r.types.size ∧
        ∃ r', c.declare r = .error .tooManyTypes r' ∧ r'.types = r.types := by
  rw [declare_eq]
  cases hname : r.byName? (c.name r) with
  | none =>
      rw [Registry.contractOrDeclare_of_new hname, Registry.defineContract_eq,
        Registry.define_of_new hname]
      by_cases room : r.types.size < UInt32.size
      · rw [if_pos room]
        exact Or.inl ⟨_, _, rfl, Registry.isWithin_of_push rfl rfl, Array.getElem?_push_size,
          Or.inr ⟨rfl, rfl⟩⟩
      · rw [if_neg room]
        exact Or.inr ⟨Nat.le_of_not_lt room, _, rfl, rfl⟩
  | some idx =>
      have hknown := unclaimed idx hname
      have hok := Registry.contractOrDeclare_of_known hname hknown rfl
      exact Or.inl ⟨idx, r, hok _, .refl r, hknown, Or.inl rfl⟩

end StandardContract

/-! ## The contracts of conversion -/

namespace StandardContract

variable {target : TypeRef} {r r' : Registry}

theorem name_castableTo_ne (r : Registry) (target : TypeRef) :
    (castableTo target).name r ≠ (implicitlyConvertibleTo target).name r := by
  intro h
  unfold name at h
  dsimp only at h
  have hstart : (toString "CastableTo<").toList = (toString "ImplicitlyConvertibleTo<").toList := by
    simpa using congrArg String.toList h
  exact absurd hstart (by decide)

end StandardContract

/-- No type but the contracts themselves has the names that the contracts of conversion to a type
have when they are looked for. The second is looked for once the first is there, and a target that
is not declared could be the first by then. -/
structure TypeRef.ConversionNamesFree (target : TypeRef) (r : Registry) : Prop where
  explicit : (StandardContract.castableTo target).Unclaimed r
  implicit : (StandardContract.implicitlyConvertibleTo target).Unclaimed
    (endState (StandardContract.castableTo target).declare r)

/-- A target that is declared, or built in, keeps its name. So it is enough that the names are not
taken at first. -/
theorem TypeRef.conversionNamesFree_of_unclaimed {target : TypeRef} {r : Registry}
    (known : ∀ idx, target = .named idx → ∃ d, r.type? idx = some d)
    (explicit : (StandardContract.castableTo target).Unclaimed r)
    (implicit : (StandardContract.implicitlyConvertibleTo target).Unclaimed r) :
    target.ConversionNamesFree r := by
  refine ⟨explicit, ?_⟩
  have hstays : ∀ r' : Registry, (∀ idx d, r.type? idx = some d → r'.type? idx = some d) →
      r'.byName? ((StandardContract.implicitlyConvertibleTo target).name r) =
        r.byName? ((StandardContract.implicitlyConvertibleTo target).name r) →
      (StandardContract.implicitlyConvertibleTo target).Unclaimed r' := by
    intro r' types byName idx hidx
    have hname : (StandardContract.implicitlyConvertibleTo target).name r' =
        (StandardContract.implicitlyConvertibleTo target).name r :=
      StandardContract.name_congr
        (List.forall_mem_singleton.2 (Registry.typeName_of_known types known))
    rw [hname, byName] at hidx
    rw [StandardContract.definition, hname]
    exact types idx _ (implicit idx hidx)
  rcases StandardContract.declare_cases explicit with
    ⟨e, r', hok, within, -, htypes⟩ | ⟨-, r', herror, htypes⟩
  · rw [endState, hok]
    refine hstays r' within.types ?_
    rcases htypes with htypes | ⟨hnew, htypes⟩
    · rw [Registry.byName?, htypes, Registry.byName?]
    · exact (Registry.byName?_of_push hnew htypes _).trans
        (if_neg (StandardContract.name_castableTo_ne r target).symm)
  · rw [endState, herror]
    refine hstays r' (fun idx d h => by rwa [Registry.type?, htypes]) ?_
    rw [Registry.byName?, htypes, Registry.byName?]

namespace World

/-- Looking the contracts up first makes no difference. -/
theorem conversionContracts_eq (target : TypeRef) :
    conversionContracts target = declare (do
      let e ← (StandardContract.castableTo target).declare
      let i ← (StandardContract.implicitlyConvertibleTo target).declare
      pure (e, i)) := by
  funext w
  have hget : (get : Action World) w = .ok w w := rfl
  rw [conversionContracts, bind_of_ok hget]
  cases he : (StandardContract.castableTo target).find? w.registry with
  | none => rfl
  | some e =>
      cases hi : (StandardContract.implicitlyConvertibleTo target).find? w.registry with
      | none => rfl
      | some i =>
          have hexplicit := StandardContract.declare_of_find? he
          have himplicit := StandardContract.declare_of_find? hi
          unfold declare
          rw [bind_of_ok hexplicit, bind_of_ok himplicit]
          rfl

/-- The contracts of conversion are there or are declared, and nothing else changes, unless there is
no room for them. -/
theorem conversionContracts_of_free {target : TypeRef} {w : World}
    (free : target.ConversionNamesFree w.registry) :
    (∃ e i r', conversionContracts target w = .ok (e, i) { w with registry := r' } ∧
      w.registry.IsWithin r' ∧
      (∃ name, r'.type? e = some ⟨name, true,
        .contract { operations := (StandardContract.castableTo target).operations }⟩) ∧
      ∃ name, r'.type? i = some ⟨name, true,
        .contract { operations := (StandardContract.implicitlyConvertibleTo target).operations }⟩) ∨
      UInt32.size < w.registry.types.size + 2 ∧
        outcome (conversionContracts target) w = .error (.registry .tooManyTypes) := by
  rw [conversionContracts_eq]
  rcases StandardContract.declare_cases free.explicit with
    ⟨e, r₁, hexplicit, hwithin, he, htypes⟩ | ⟨hroom, r₁, hexplicit, -⟩
  · have hsize : r₁.types.size ≤ w.registry.types.size + 1 := by
      rcases htypes with htypes | ⟨-, htypes⟩ <;> simp [htypes]
    have himplicitFree := free.implicit
    rw [show endState (StandardContract.castableTo target).declare w.registry = r₁ by
      rw [endState, hexplicit]] at himplicitFree
    rcases StandardContract.declare_cases himplicitFree with
      ⟨i, r₂, himplicit, hwithin', hi, -⟩ | ⟨hroom, r₂, himplicit, -⟩
    · refine Or.inl ⟨e, i, r₂, ?_, hwithin.trans hwithin', ⟨_, hwithin'.types e _ he⟩, ⟨_, hi⟩⟩
      unfold declare
      rw [bind_of_ok hexplicit, bind_of_ok himplicit]
      rfl
    · refine Or.inr ⟨by omega, ?_⟩
      unfold outcome declare
      rw [bind_of_ok hexplicit, bind_of_error himplicit]
  · refine Or.inr ⟨by omega, ?_⟩
    unfold outcome declare
    rw [bind_of_error hexplicit]

end World

end Contracts
