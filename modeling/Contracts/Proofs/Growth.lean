import Contracts.Proofs.Reachability
import Contracts.Proofs.Resolution
import Mathlib.Data.List.Forall2

set_option autoImplicit false

/-! # Registries that grow

A registry grows if its types come to have more methods, operators and conversions, and nothing else
changes (`Registry.Grows`). Assignability, the contracts and the properties are then as before, and
of everything else that a type may be bound to there is no less: whatever is bound in a registry is
bound after it has grown, if not always to the same member (`Registry.Grows.isSome_resolve`). -/

namespace Contracts

/-! ## Growing -/

/-- All members in their places and perhaps more after them, but the same properties. -/
structure Members.Grows (ms ms' : Members) : Prop where
  methods : ms.methods <+: ms'.methods
  operators : ms.operators <+: ms'.operators
  conversions : ms.conversions <+: ms'.conversions
  properties : ms'.properties = ms.properties

/-- The same type, but for members. -/
structure TypeDef.Grows (d d' : TypeDef) : Prop where
  name : d'.name = d.name
  isPublic : d'.isPublic = d.isPublic
  kind : d'.kind = d.kind
  base? : d'.base? = d.base?
  implements : d'.implements = d.implements
  parents : d'.parents = d.parents
  operations : d'.operations = d.operations
  members : d.members.Grows d'.members

/-- The same types, each of them with all its members and perhaps more. -/
structure Registry.Grows (r r' : Registry) : Prop where
  size : r'.types.size = r.types.size
  types : ∀ idx d, r.type? idx = some d → ∃ d', r'.type? idx = some d' ∧ d.Grows d'
  builtins : ∀ b, ((r.builtinMembers b).getD {}).Grows ((r'.builtinMembers b).getD {})

theorem Members.Grows.refl (ms : Members) : ms.Grows ms :=
  ⟨List.prefix_rfl, List.prefix_rfl, List.prefix_rfl, rfl⟩

theorem Members.Grows.trans {a b c : Members} (hab : a.Grows b) (hbc : b.Grows c) : a.Grows c :=
  ⟨hab.methods.trans hbc.methods, hab.operators.trans hbc.operators,
    hab.conversions.trans hbc.conversions, hbc.properties.trans hab.properties⟩

theorem TypeDef.Grows.refl (d : TypeDef) : d.Grows d :=
  ⟨rfl, rfl, rfl, rfl, rfl, rfl, rfl, .refl d.members⟩

theorem TypeDef.Grows.trans {a b c : TypeDef} (hab : a.Grows b) (hbc : b.Grows c) : a.Grows c where
  name := hbc.name.trans hab.name
  isPublic := hbc.isPublic.trans hab.isPublic
  kind := hbc.kind.trans hab.kind
  base? := hbc.base?.trans hab.base?
  implements := hbc.implements.trans hab.implements
  parents := hbc.parents.trans hab.parents
  operations := hbc.operations.trans hab.operations
  members := hab.members.trans hbc.members

theorem TypeDef.Grows.links {d d' : TypeDef} (h : d.Grows d') : d'.links = d.links := by
  rw [TypeDef.links, h.base?, h.implements, h.parents]
  rfl

theorem TypeDef.Grows.isContract {d d' : TypeDef} (h : d.Grows d') :
    d'.isContract = d.isContract := by
  rw [TypeDef.isContract, h.kind]
  rfl

/-- What is located in a list of members is located in a longer one. -/
theorem locate_subset {α : Type} {members members' : List α} (h : members <+: members')
    (owner : ImplType) : locate owner members ⊆ locate owner members' := by
  obtain ⟨more, rfl⟩ := h
  rw [locate, locate, List.mapIdx_append]
  exact List.subset_append_left _ _

theorem flatMap_subset_of_forall₂ {α β : Type} {R : α → α → Prop} {f : α → List β}
    {xs ys : List α} (h : List.Forall₂ R xs ys) (subset : ∀ x y, R x y → f x ⊆ f y) :
    xs.flatMap f ⊆ ys.flatMap f := by
  induction h with
  | nil => exact List.Subset.refl _
  | cons hxy _ ih =>
      rw [List.flatMap_cons, List.flatMap_cons]
      refine List.append_subset.2 ⟨?_, ?_⟩
      · exact List.subset_append_of_subset_left _ (subset _ _ hxy)
      · exact List.subset_append_of_subset_right _ ih

/-! ## Unification depends on assignability only -/

namespace Unifier

variable {u : Unifier} {r : Registry}

theorem concrete_congr (same : r.isAssignable = u.registry.isAssignable) :
    Unifier.concrete { u with registry := r } = u.concrete := by
  funext variance required candidate
  unfold concrete
  cases u.substitute <;> cases variance <;> simp [Registry.checkVariance, same]

theorem types_congr (same : r.isAssignable = u.registry.isAssignable) :
    Unifier.types { u with registry := r } = u.types := by
  funext params variance required candidate
  cases required <;> cases candidate <;> simp only [types, concrete_congr same]

theorem constraints_congr (same : r.isAssignable = u.registry.isAssignable) :
    Unifier.constraints { u with registry := r } = u.constraints := by
  funext params required candidate
  have hconstraint : Unifier.constraint { u with registry := r } params = u.constraint params := by
    funext a b
    cases a <;> cases b <;> simp only [constraint, types_congr same]
  simp only [constraints, hconstraint]

theorem params_congr (same : r.isAssignable = u.registry.isAssignable) (depth : Nat) :
    Unifier.params { u with registry := r } depth = u.params depth := by
  induction depth with
  | zero => rfl
  | succ depth ih =>
      funext i j
      simp only [params, constraints_congr same, ih]

theorem signature_congr (same : r.isAssignable = u.registry.isAssignable)
    (required candidate : Signature) :
    Unifier.signature { u with registry := r } required candidate =
      u.signature required candidate := by
  simp only [signature, paramPair, types_congr same, params_congr same]

end Unifier

namespace Registry

variable {r r' : Registry} {config : Config} {ty : ImplType} {op : Operation}

theorem unifies_congr (same : r'.isAssignable = r.isAssignable) (substitute : Bool)
    (required candidate : Signature) :
    r'.unifies substitute required candidate = r.unifies substitute required candidate := by
  let u : Unifier := ⟨r, required.generics, candidate.generics, substitute⟩
  have hsignature := Unifier.signature_congr (u := u) same required candidate
  simp only [unifies, u] at hsignature ⊢
  rw [hsignature]

namespace Grows

theorem refl (r : Registry) : r.Grows r :=
  ⟨rfl, fun _ d hd => ⟨d, hd, .refl d⟩, fun _ => .refl _⟩

theorem trans {a b c : Registry} (hab : a.Grows b) (hbc : b.Grows c) : a.Grows c := by
  refine ⟨hbc.size.trans hab.size, fun idx d hd => ?_, fun b => (hab.builtins b).trans
    (hbc.builtins b)⟩
  obtain ⟨d', hd', hgrows⟩ := hab.types idx d hd
  obtain ⟨d'', hd'', hgrows'⟩ := hbc.types idx d' hd'
  exact ⟨d'', hd'', hgrows.trans hgrows'⟩

/-! ## What stays the same -/

/-- A position is declared in both registries or in none. -/
theorem type?_cases (h : r.Grows r') (idx : TypeIdx) :
    r.type? idx = none ∧ r'.type? idx = none ∨
      ∃ d d', r.type? idx = some d ∧ r'.type? idx = some d' ∧ d.Grows d' := by
  cases hd : r.type? idx with
  | none =>
      have hlt : r.types.size ≤ idx.index := Array.getElem?_eq_none_iff.1 hd
      exact Or.inl ⟨rfl, Array.getElem?_eq_none_iff.2 (h.size ▸ hlt)⟩
  | some d =>
      obtain ⟨d', hd', hgrows⟩ := h.types idx d hd
      exact Or.inr ⟨d, d', rfl, hd', hgrows⟩

theorem map_type? (h : r.Grows r') {α : Type} {f : TypeDef → α}
    (same : ∀ {d d' : TypeDef}, d.Grows d' → f d' = f d) (idx : TypeIdx) :
    (r'.type? idx).map f = (r.type? idx).map f := by
  rcases h.type?_cases idx with ⟨hd, hd'⟩ | ⟨d, d', hd, hd', hgrows⟩
  · rw [hd, hd']
  · rw [hd, hd', Option.map_some, Option.map_some, same hgrows]

theorem links (h : r.Grows r') (idx : TypeIdx) : r'.links idx = r.links idx := by
  rw [Registry.links, Registry.links, successors, successors, h.map_type? TypeDef.Grows.links]

theorem parents (h : r.Grows r') (idx : TypeIdx) : r'.parents idx = r.parents idx := by
  rw [Registry.parents, Registry.parents, successors, successors,
    h.map_type? TypeDef.Grows.parents]

theorem typeName (h : r.Grows r') (ty : TypeRef) : r'.typeName ty = r.typeName ty := by
  cases ty with
  | builtin b => rfl
  | param i => rfl
  | named idx =>
      rcases h.type?_cases idx with ⟨hd, hd'⟩ | ⟨d, d', hd, hd', hgrows⟩
      · simp only [Registry.typeName, hd, hd']
      · simp only [Registry.typeName, hd, hd', hgrows.name]

theorem isValueType (h : r.Grows r') (ty : TypeRef) : r'.isValueType ty = r.isValueType ty := by
  cases ty with
  | builtin b => rfl
  | param i => rfl
  | named idx =>
      rcases h.type?_cases idx with ⟨hd, hd'⟩ | ⟨d, d', hd, hd', hgrows⟩
      · simp only [Registry.isValueType, hd, hd']
      · simp only [Registry.isValueType, hd, hd', Option.any_some, hgrows.kind]

theorem derivesFrom (h : r.Grows r') (a b : TypeIdx) : r'.derivesFrom a b = r.derivesFrom a b := by
  rw [Registry.derivesFrom, Registry.derivesFrom, walk_congr fun c _ => h.links c]

theorem isAssignable (h : r.Grows r') : r'.isAssignable = r.isAssignable := by
  funext source target
  cases source <;> cases target <;> simp only [Registry.isAssignable, h.derivesFrom]

theorem coercion? (h : r.Grows r') : r'.coercion? = r.coercion? := by
  funext source target
  simp only [Registry.coercion?, keepingCoercion?, h.isAssignable, h.isValueType]

theorem resultCoercion? (h : r.Grows r') : r'.resultCoercion? = r.resultCoercion? := by
  funext source target
  simp only [Registry.resultCoercion?, h.coercion?]

theorem ancestry (h : r.Grows r') (idx : TypeIdx) : r'.ancestry idx = r.ancestry idx :=
  walk_congr fun c _ => h.parents c

theorem ownOperations (h : r.Grows r') : r'.ownOperations = r.ownOperations := by
  funext idx
  unfold Registry.ownOperations
  rcases h.type?_cases idx with ⟨hd, hd'⟩ | ⟨d, d', hd, hd', hgrows⟩
  · rw [hd, hd']
  · simp only [hd, hd', hgrows.isContract, hgrows.isPublic, hgrows.operations, hgrows.name,
      hgrows.kind]

/-- Contracts ask for what they have always asked for, or fail as ever. -/
theorem extract (h : r.Grows r') (idx : TypeIdx) : r'.extract idx = r.extract idx := by
  simp only [Registry.extract, h.ancestry, h.ownOperations, h.typeName]

/-! ## What there is more of -/

theorem members (h : r.Grows r') (ty : ImplType) :
    ((r.members? ty).getD {}).Grows ((r'.members? ty).getD {}) := by
  cases ty with
  | builtin b => exact h.builtins b
  | named idx =>
      rcases h.type?_cases idx with ⟨hd, hd'⟩ | ⟨d, d', hd, hd', hgrows⟩
      · simp only [members?, hd, hd']
        exact .refl _
      · simp only [members?, hd, hd']
        exact hgrows.members

theorem baseWalk (h : r.Grows r') (steps : Nat) (idx : TypeIdx) :
    List.Forall₂ (fun a b => a.1 = b.1 ∧ a.2.Grows b.2) (r.baseWalk steps idx)
      (r'.baseWalk steps idx) := by
  induction steps generalizing idx with
  | zero =>
      unfold Registry.baseWalk
      rcases h.type?_cases idx with ⟨hd, hd'⟩ | ⟨d, d', hd, hd', hgrows⟩
      · rw [hd, hd']
        exact .nil
      · rw [hd, hd']
        exact .cons ⟨rfl, hgrows⟩ .nil
  | succ steps ih =>
      unfold Registry.baseWalk
      rcases h.type?_cases idx with ⟨hd, hd'⟩ | ⟨d, d', hd, hd', hgrows⟩
      · rw [hd, hd']
        exact .nil
      · simp only [hd, hd', hgrows.base?]
        cases d.base? with
        | none => exact .cons ⟨rfl, hgrows⟩ .nil
        | some base => exact .cons ⟨rfl, hgrows⟩ (ih base)

theorem memberSources_named (h : r.Grows r') (idx : TypeIdx) :
    List.Forall₂ (fun a b => a.1 = b.1 ∧ a.2.Grows b.2)
      (r.memberSources (.named idx)) (r'.memberSources (.named idx)) := by
  unfold memberSources baseChain
  rw [h.size, List.forall₂_map_left_iff, List.forall₂_map_right_iff]
  exact (h.baseWalk _ idx).imp fun a b hab => ⟨congrArg ImplType.named hab.1, hab.2.members⟩

end Grows

theorem allMethods_builtin (r : Registry) (b : Builtin) :
    r.allMethods (.builtin b) = locate (.builtin b) ((r.builtinMembers b).getD {}).methods := by
  cases hb : r.builtinMembers b with
  | none => simp [allMethods, memberSources, hb, locate]
  | some ms => simp [allMethods, memberSources, hb]

theorem property?_builtin (r : Registry) (b : Builtin) (name : String) :
    r.property? (.builtin b) name = ((r.builtinMembers b).getD {}).properties.find? fun p =>
      p.name == name && p.isPublic := by
  cases hb : r.builtinMembers b with
  | none => simp [Registry.property?, memberSources, hb]
  | some ms => simp [Registry.property?, memberSources, hb]

namespace Grows

theorem allMethods_subset (h : r.Grows r') (ty : ImplType) :
    r.allMethods ty ⊆ r'.allMethods ty := by
  cases ty with
  | builtin b =>
      rw [allMethods_builtin, allMethods_builtin]
      exact locate_subset (h.builtins b).methods _
  | named idx =>
      -- Only the type's own static methods count, so the first source is apart.
      have hsources := h.memberSources_named idx
      unfold allMethods
      generalize r.memberSources (.named idx) = sources at hsources ⊢
      generalize r'.memberSources (.named idx) = sources' at hsources ⊢
      cases hsources with
      | nil => exact List.Subset.refl _
      | @cons own own' _ _ hown hbases =>
          obtain ⟨howner, hgrows⟩ := hown
          dsimp only
          rw [← howner]
          refine List.append_subset.2 ⟨?_, ?_⟩
          · exact List.subset_append_of_subset_left _ (locate_subset hgrows.methods _)
          · refine List.subset_append_of_subset_right _ (flatMap_subset_of_forall₂ hbases ?_)
            intro base base' hbase
            rw [← hbase.1]
            exact List.filter_subset _ (locate_subset hbase.2.methods _)

theorem property? (h : r.Grows r') (ty : ImplType) (name : String) :
    r'.property? ty name = r.property? ty name := by
  cases ty with
  | builtin b => rw [property?_builtin, property?_builtin, (h.builtins b).properties]
  | named idx =>
      have hsources := h.memberSources_named idx
      unfold Registry.property?
      generalize r.memberSources (.named idx) = sources at hsources ⊢
      generalize r'.memberSources (.named idx) = sources' at hsources ⊢
      induction hsources with
      | nil => rfl
      | cons hown _ ih => simp only [List.findSome?_cons, hown.2.properties, ih]

theorem methods_subset (h : r.Grows r') (ty : ImplType) (name : Option String)
    (arity : Option Nat) (filter : MethodFilter) :
    r.methods ty name arity filter ⊆ r'.methods ty name arity filter :=
  List.filter_subset _ (h.allMethods_subset ty)

theorem operators_subset (h : r.Grows r') (ty : ImplType) (symbol : Option BinaryOp) :
    r.operators ty symbol ⊆ r'.operators ty symbol :=
  List.filter_subset _ (locate_subset (h.members ty).operators ty)

theorem conversions_subset (h : r.Grows r') (ty : ImplType) (kind : ConversionKind) :
    r.conversions ty kind ⊆ r'.conversions ty kind :=
  List.filter_subset _ (locate_subset (h.members ty).conversions ty)

/-! ## What is bound -/

theorem bindMethod? (h : r.Grows r') : r'.bindMethod? = r.bindMethod? := by
  funext op m
  simp only [Registry.bindMethod?, h.coercion?, h.resultCoercion?]

theorem bindOperator? (h : r.Grows r') : r'.bindOperator? = r.bindOperator? := by
  funext op side this other target left right result
  simp only [Registry.bindOperator?, operandCoercions?, h.coercion?, h.resultCoercion?]

theorem primitiveOperator? (h : r.Grows r') : r'.primitiveOperator? = r.primitiveOperator? := by
  funext op symbol side this other
  simp only [Registry.primitiveOperator?, Primitive.findOperator?, h.isAssignable, h.bindOperator?]

theorem isSome_resolveMethod (h : r.Grows r') {filter : MethodFilter}
    (bound : (r.resolveMethod config ty op filter).isSome = true) :
    (r'.resolveMethod config ty op filter).isSome = true := by
  rw [isSome_resolveMethod_iff] at bound ⊢
  obtain ⟨m, hm, hunifies, hbind⟩ := bound
  refine ⟨m, h.methods_subset ty _ _ _ hm, ?_, ?_⟩
  · rw [unifies_congr h.isAssignable]
    exact hunifies
  · rw [h.bindMethod?]
    exact hbind

theorem isSome_resolveConversion (h : r.Grows r') {kind : ConversionKind}
    (bound : (r.resolveConversion config ty op kind).isSome = true) :
    (r'.resolveConversion config ty op kind).isSome = true := by
  rw [isSome_resolveConversion_iff] at bound ⊢
  rcases bound with ⟨c, hc, htarget⟩ | hother
  · exact Or.inl ⟨c, h.conversions_subset ty kind hc, htarget⟩
  · exact Or.inr hother

theorem isSome_resolveOperator (h : r.Grows r') {symbol : BinaryOp} {side : Side}
    (bound : (r.resolveOperator config ty op symbol side).isSome = true) :
    (r'.resolveOperator config ty op symbol side).isSome = true := by
  rw [isSome_resolveOperator_iff] at bound ⊢
  obtain ⟨other, hother, hfound⟩ := bound
  refine ⟨other, hother, ?_⟩
  rw [h.primitiveOperator?, h.bindOperator?]
  rcases hfound with ⟨owner, howner, o, ho, hbind⟩ | hprimitive
  · exact Or.inl ⟨owner, howner, o, h.operators_subset owner _ ho, hbind⟩
  · exact Or.inr hprimitive

theorem resolveGetter (h : r.Grows r') : r'.resolveGetter ty op = r.resolveGetter ty op := by
  simp only [Registry.resolveGetter, h.property?, h.coercion?]

theorem resolveSetter (h : r.Grows r') : r'.resolveSetter ty op = r.resolveSetter ty op := by
  simp only [Registry.resolveSetter, h.property?, h.coercion?]

/-- What is bound stays bound. -/
theorem isSome_resolve (h : r.Grows r') (bound : (r.resolve config ty op).isSome = true) :
    (r'.resolve config ty op).isSome = true := by
  unfold resolve at bound ⊢
  split at bound
  · exact h.isSome_resolveMethod bound
  · exact h.isSome_resolveMethod bound
  · exact h.isSome_resolveConversion bound
  · exact h.isSome_resolveOperator bound
  · rw [h.resolveGetter]
    exact bound
  · rw [h.resolveSetter]
    exact bound

end Grows

end Registry

end Contracts
