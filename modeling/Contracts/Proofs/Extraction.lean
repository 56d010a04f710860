import Contracts.Proofs.Reachability
import Mathlib.Data.List.Forall2

set_option autoImplicit false

/-! # What extraction lets through

An operation has no fault exactly if it is in shape (`Operation.fault?_eq_none_iff`), and a contract
is extracted exactly if it and all of its ancestors are declared, public contracts that ask for
operations in shape (`Registry.extract_eq_ok_iff`). What is not extracted has a first ancestor that
is not like that, and the error says what is wrong with it (`Registry.fault_of_extract`). -/

namespace Contracts

/-! ## Reading a list -/

section Reading

variable {ε α β : Type} {f : α → Except ε β}

theorem Except.mapM_cons_of_ok {x : α} {y : β} (xs : List α) (h : f x = .ok y) :
    (x :: xs).mapM f = (xs.mapM f).map (y :: ·) := by
  rw [List.mapM_cons, h]
  cases xs.mapM f <;> rfl

theorem Except.mapM_cons_of_error {x : α} {e : ε} (xs : List α) (h : f x = .error e) :
    (x :: xs).mapM f = .error e := by
  rw [List.mapM_cons, h]
  rfl

/-- A list is read exactly if each of its elements is read. -/
theorem Except.mapM_eq_ok_iff {xs : List α} {ys : List β} :
    xs.mapM f = .ok ys ↔ List.Forall₂ (fun x y => f x = .ok y) xs ys := by
  induction xs generalizing ys with
  | nil => cases ys <;> simp [pure, Except.pure]
  | cons x xs ih =>
      cases hx : f x with
      | error e =>
          rw [mapM_cons_of_error xs hx]
          cases ys <;> simp [hx]
      | ok y =>
          rw [mapM_cons_of_ok xs hx]
          cases hxs : xs.mapM f with
          | error e => cases ys <;> simp [Except.map, hx, ← ih, hxs]
          | ok rest => cases ys <;> simp [Except.map, hx, ← ih, hxs]

/-- The error of a list is that of its first element that is not read. -/
theorem Except.exists_of_mapM_eq_error {xs : List α} {e : ε} (h : xs.mapM f = .error e) :
    ∃ before x after, xs = before ++ x :: after ∧ (∀ b ∈ before, ∃ y, f b = .ok y) ∧
      f x = .error e := by
  induction xs with
  | nil => cases h
  | cons x xs ih =>
      cases hx : f x with
      | error e' =>
          rw [mapM_cons_of_error xs hx] at h
          exact ⟨[], x, xs, rfl, by simp, Except.error.inj h ▸ hx⟩
      | ok y =>
          rw [mapM_cons_of_ok xs hx] at h
          cases hxs : xs.mapM f with
          | ok rest =>
              rw [hxs] at h
              cases h
          | error e' =>
              rw [hxs] at h
              obtain rfl := Except.error.inj h
              obtain ⟨before, x', after, rfl, hbefore, hx'⟩ := ih hxs
              refine ⟨x :: before, x', after, rfl, ?_, hx'⟩
              intro b hb
              rcases List.mem_cons.1 hb with rfl | hb
              · exact ⟨y, hx⟩
              · exact hbefore b hb

end Reading

/-! ## The shape of an operation -/

/-- What a contract may ask for. -/
structure Operation.InShape (op : Operation) : Prop where
  /-- No generic parameter is to be a reference type and a value type. -/
  consistent : ∀ p ∈ op.generics, ¬(.reference ∈ p.constraints ∧ .value ∈ p.constraints)
  /-- The parameters and the result mention only declared generic parameters. -/
  declared : ∀ i, .param i ∈ op.params ∨ op.ret = .param i → i < op.generics.length
  nonvoid : .void ∉ op.params
  conversion : ∀ kind, op.kind = .conversion kind → op.params = [] ∧ op.ret ≠ .void
  operator : ∀ symbol side, op.kind = .operator symbol side → ∃ other, op.params = [other]
  getter : op.kind = .getter → op.params = [] ∧ op.ret ≠ .void
  setter : op.kind = .setter → (∃ ty, op.params = [ty]) ∧ op.ret = .void

namespace Operation

variable {op : Operation}

theorem find?_isConsistent_eq_none_iff :
    op.generics.find? (!·.isConsistent) = none ↔
      ∀ p ∈ op.generics, ¬(.reference ∈ p.constraints ∧ .value ∈ p.constraints) := by
  simp [List.find?_eq_none, GenericParam.isConsistent]

theorem any_isUndeclared_eq_false_iff :
    (op.params ++ [op.ret]).any op.isUndeclared = false ↔
      ∀ i, .param i ∈ op.params ∨ op.ret = .param i → i < op.generics.length := by
  rw [List.any_eq_false]
  constructor
  · intro h i hi
    have hmem : TypeRef.param i ∈ op.params ++ [op.ret] := by
      rcases hi with hi | hi
      · exact List.mem_append_left _ hi
      · exact List.mem_append_right _ (by simp [hi])
    simpa [isUndeclared] using h _ hmem
  · intro h ty hty
    cases ty with
    | builtin b => simp [isUndeclared]
    | named idx => simp [isUndeclared]
    | param i =>
        rw [List.mem_append, List.mem_singleton] at hty
        have hi := h i (hty.imp_right Eq.symm)
        simpa [isUndeclared] using hi

theorem kindFault?_eq_none_iff :
    op.kindFault? = none ↔
      (∀ kind, op.kind = .conversion kind → op.params = [] ∧ op.ret ≠ .void) ∧
      (∀ symbol side, op.kind = .operator symbol side → ∃ other, op.params = [other]) ∧
      (op.kind = .getter → op.params = [] ∧ op.ret ≠ .void) ∧
      (op.kind = .setter → (∃ ty, op.params = [ty]) ∧ op.ret = .void) := by
  unfold kindFault?
  cases hkind : op.kind with
  | method | staticMethod => simp
  | conversion kind => by_cases hparams : op.params = [] <;> simp [hparams, TypeRef.isVoid]
  | operator symbol side => simp [List.length_eq_one_iff]
  | getter => simp [TypeRef.isVoid]
  | setter =>
      have hlength := List.length_eq_one_iff (l := op.params)
      simp [TypeRef.isVoid, ← hlength]

/-- The check of an operation refuses exactly what is not in shape. -/
theorem fault?_eq_none_iff : op.fault? = none ↔ op.InShape := by
  have hvoid : op.params.any (·.isVoid) = true ↔ .void ∈ op.params := by
    simp [TypeRef.isVoid]
  unfold fault?
  constructor
  · intro h
    split at h
    · exact absurd h (by simp)
    · rename_i hconsistent
      split at h
      · exact absurd h (by simp)
      · rename_i hdeclared
        split at h
        · exact absurd h (by simp)
        · rename_i hnonvoid
          obtain ⟨conversion, operator, getter, setter⟩ := kindFault?_eq_none_iff.1 h
          exact ⟨find?_isConsistent_eq_none_iff.1 hconsistent,
            any_isUndeclared_eq_false_iff.1 (by simpa using hdeclared),
            fun hmem => hnonvoid (hvoid.2 hmem), conversion, operator, getter, setter⟩
  · intro h
    have hdeclared := any_isUndeclared_eq_false_iff.2 h.declared
    have hkind := kindFault?_eq_none_iff.2 ⟨h.conversion, h.operator, h.getter, h.setter⟩
    rw [find?_isConsistent_eq_none_iff.2 h.consistent]
    simp only [hdeclared, hkind, Bool.false_eq_true, if_false]
    exact if_neg fun hmem => h.nonvoid (hvoid.1 hmem)

theorem lt_of_param_mem (h : op.fault? = none) {i : Nat}
    (hi : .param i ∈ op.params ∨ op.ret = .param i) : i < op.generics.length :=
  (fault?_eq_none_iff.1 h).declared i hi

theorem params_of_operator {symbol : BinaryOp} {side : Side} (h : op.fault? = none)
    (hkind : op.kind = .operator symbol side) : ∃ other, op.params = [other] :=
  (fault?_eq_none_iff.1 h).operator symbol side hkind

theorem params_of_setter (h : op.fault? = none) (hkind : op.kind = .setter) :
    ∃ ty, op.params = [ty] :=
  ((fault?_eq_none_iff.1 h).setter hkind).1

end Operation

namespace Registry

/-! ## The shape of a contract -/

/-- The operations that a declared type itself asks for. -/
def ownRequired (r : Registry) (idx : TypeIdx) : List Operation :=
  ((r.type? idx).map (·.operations)).getD []

/-- A public contract is declared at the position, and asks for operations in shape. -/
def InShape (r : Registry) (idx : TypeIdx) : Prop :=
  ∃ decl, r.type? idx = some decl ∧ decl.isContract = true ∧ decl.isPublic = true ∧
    ∀ op ∈ decl.operations, op.InShape

/-- What is wrong with the contract that should be at a position. Of its operations it is the first
one not in shape that counts. -/
inductive Faulty (r : Registry) (idx : TypeIdx) : ShapeError → Prop
  | undeclared (unknown : r.type? idx = none) : Faulty r idx (.unknownType idx)
  | noContract {decl : TypeDef} (known : r.type? idx = some decl)
      (other : decl.isContract = false) : Faulty r idx (.notContract decl.name decl.kind)
  | hidden {decl : TypeDef} (known : r.type? idx = some decl) (contract : decl.isContract = true)
      (inner : decl.isPublic = false) : Faulty r idx (.hiddenContract decl.name)
  | operation {decl : TypeDef} {before after : List Operation} {op : Operation}
      {fault : OperationFault} (known : r.type? idx = some decl)
      (contract : decl.isContract = true) (isPublic : decl.isPublic = true)
      (split : decl.operations = before ++ op :: after) (good : ∀ b ∈ before, b.InShape)
      (bad : op.fault? = some fault) :
      Faulty r idx (.badOperation op.kind op.name decl.name fault)

variable {r : Registry} {idx : TypeIdx}

theorem findSome?_fault_eq_none_iff {ops : List Operation} :
    (ops.findSome? fun op => op.fault?.map (op, ·)) = none ↔ ∀ op ∈ ops, op.InShape := by
  simp [List.findSome?_eq_none_iff, Operation.fault?_eq_none_iff]

/-- A contract in shape hands out its own operations, and any other says what is wrong. -/
theorem ownOperations_cases (r : Registry) (idx : TypeIdx) :
    (r.InShape idx ∧ r.ownOperations idx = .ok (r.ownRequired idx)) ∨
      ¬r.InShape idx ∧ ∃ e, r.Faulty idx e ∧ r.ownOperations idx = .error e := by
  unfold ownOperations InShape ownRequired
  cases hdecl : r.type? idx with
  | none => exact Or.inr ⟨by simp, _, .undeclared hdecl, rfl⟩
  | some decl =>
      cases hcontract : decl.isContract with
      | false =>
          exact Or.inr ⟨by simp [hcontract], _, .noContract hdecl hcontract, by simp [hcontract]⟩
      | true =>
          cases hpublic : decl.isPublic with
          | false => exact Or.inr ⟨by simp [hpublic], _, .hidden hdecl hcontract hpublic,
              by simp [hcontract, hpublic]⟩
          | true =>
              cases hfault : decl.operations.findSome? fun op => op.fault?.map (op, ·) with
              | none =>
                  have hshape := findSome?_fault_eq_none_iff.1 hfault
                  exact Or.inl ⟨⟨decl, rfl, hcontract, hpublic, hshape⟩,
                    by simp [hcontract, hpublic, hfault]⟩
              | some found =>
                  obtain ⟨before, op, after, hsplit, hop, hbefore⟩ :=
                    List.findSome?_eq_some_iff.1 hfault
                  obtain ⟨fault, hbad, rfl⟩ := Option.map_eq_some_iff.1 hop
                  have hgood : ∀ b ∈ before, b.InShape := fun b hb =>
                    Operation.fault?_eq_none_iff.1 (by simpa using hbefore b hb)
                  refine Or.inr ⟨?_, _, .operation hdecl hcontract hpublic hsplit hgood hbad,
                    by simp [hcontract, hpublic, hfault]⟩
                  rintro ⟨decl', hdecl', -, -, hshape⟩
                  obtain rfl := Option.some.inj hdecl'
                  have hnone := Operation.fault?_eq_none_iff.2 (hshape op (by simp [hsplit]))
                  rw [hnone] at hbad
                  exact absurd hbad (by simp)

theorem ownOperations_eq_ok_iff {ops : List Operation} :
    r.ownOperations idx = .ok ops ↔ r.InShape idx ∧ ops = r.ownRequired idx := by
  rcases r.ownOperations_cases idx with ⟨hshape, hok⟩ | ⟨hshape, e, -, herror⟩
  · rw [hok, Except.ok.injEq]
    exact ⟨fun h => ⟨hshape, h.symm⟩, fun h => h.2.symm⟩
  · rw [herror]
    exact ⟨fun h => absurd h (by simp), fun h => absurd h.1 hshape⟩

theorem faulty_of_ownOperations {e : ShapeError} (h : r.ownOperations idx = .error e) :
    r.Faulty idx e := by
  rcases r.ownOperations_cases idx with ⟨-, hok⟩ | ⟨-, e', hfaulty, herror⟩
  · rw [hok] at h
    exact absurd h (by simp)
  · rw [herror] at h
    exact Except.error.inj h ▸ hfaulty

/-! ## Contracts with their ancestors -/

theorem mapM_ownOperations_eq_ok_iff {order : List TypeIdx} {all : List (List Operation)} :
    order.mapM r.ownOperations = .ok all ↔
      (∀ c ∈ order, r.InShape c) ∧ all = order.map r.ownRequired := by
  rw [Except.mapM_eq_ok_iff]
  induction order generalizing all with
  | nil => cases all <;> simp
  | cons c order ih =>
      cases all with
      | nil => simp
      | cons ops all =>
          rw [List.forall₂_cons, ih, ownOperations_eq_ok_iff, List.forall_mem_cons, List.map_cons,
            List.cons.injEq]
          grind

/-- A contract is extracted exactly if it and its ancestors are in shape. What it asks for is what
they ask for, each operation once. -/
theorem extract_eq_ok_iff {spec : ContractSpec} :
    r.extract idx = .ok spec ↔ (∀ c ∈ r.ancestry idx, r.InShape c) ∧
      spec = ⟨idx, r.typeName (.named idx),
        ((r.ancestry idx).flatMap r.ownRequired).eraseDups⟩ := by
  unfold extract
  cases hall : (r.ancestry idx).mapM r.ownOperations with
  | error e =>
      refine ⟨fun h => absurd h (by simp [bind, Except.bind]), ?_⟩
      rintro ⟨hshape, -⟩
      rw [mapM_ownOperations_eq_ok_iff.2 ⟨hshape, rfl⟩] at hall
      exact absurd hall (by simp)
  | ok all =>
      obtain ⟨hshape, rfl⟩ := mapM_ownOperations_eq_ok_iff.1 hall
      simp only [bind, Except.bind, pure, Except.pure, Except.ok.injEq, List.flatMap]
      exact ⟨fun h => ⟨hshape, h.symm⟩, fun h => h.2.symm⟩

/-- If a contract is not extracted, the error is what is wrong with the first of its ancestors with
which something is wrong. -/
theorem fault_of_extract {e : ShapeError} (h : r.extract idx = .error e) :
    ∃ before c after, r.ancestry idx = before ++ c :: after ∧ (∀ b ∈ before, r.InShape b) ∧
      r.Faulty c e := by
  cases hall : (r.ancestry idx).mapM r.ownOperations with
  | ok all => simp [extract, hall, bind, Except.bind, pure, Except.pure] at h
  | error e' =>
      have he : e' = e := by simpa [extract, hall, bind, Except.bind] using h
      subst he
      obtain ⟨before, c, after, hsplit, hbefore, hc⟩ := Except.exists_of_mapM_eq_error hall
      refine ⟨before, c, after, hsplit, ?_, faulty_of_ownOperations hc⟩
      intro b hb
      obtain ⟨ops, hops⟩ := hbefore b hb
      exact (ownOperations_eq_ok_iff.1 hops).1

/-- An extracted contract has only operations in shape. -/
theorem inShape_of_extract {spec : ContractSpec} (h : r.extract idx = .ok spec) :
    ∀ op ∈ spec.operations, op.InShape := by
  obtain ⟨hshape, rfl⟩ := extract_eq_ok_iff.1 h
  intro op hop
  obtain ⟨c, hc, hmem⟩ := List.mem_flatMap.1 (List.mem_eraseDups.1 hop)
  obtain ⟨decl, hdecl, -, -, hops⟩ := hshape c hc
  have howned : op ∈ decl.operations := by simpa [ownRequired, hdecl] using hmem
  exact hops op howned

theorem fault?_of_extract {spec : ContractSpec} (h : r.extract idx = .ok spec) :
    ∀ op ∈ spec.operations, op.fault? = none :=
  fun op hop => Operation.fault?_eq_none_iff.2 (inShape_of_extract h op hop)

theorem contract_of_extract {spec : ContractSpec} (h : r.extract idx = .ok spec) :
    spec.contract = idx := by
  obtain ⟨-, rfl⟩ := extract_eq_ok_iff.1 h
  rfl

end Registry

end Contracts
