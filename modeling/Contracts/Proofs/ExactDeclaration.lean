import Contracts.Match
import Contracts.Proofs.Extraction
import Contracts.Proofs.SelfUnification

set_option autoImplicit false

/-! # Exact declarations

A type that itself declares what an operation asks for, letter by letter, provides the operation at
no cost (`Registry.resolve_of_declares`): no coercion is needed, and nothing that the type inherits
or that is primitive takes the place of the exact member by being cheaper. For generic methods this
rests on signatures unifying with themselves. -/

namespace Contracts

/-! ## What is declared exactly -/

/-- The bounds of the operation's generic parameters mention no parameter but its own. -/
def Operation.BoundsDeclared (op : Operation) : Prop :=
  ∀ p ∈ op.generics, ∀ i, .bound (.param i) ∈ p.constraints → i < op.generics.length

/-- A public method with the name and the signature of an operation. Generic parameters may be
called differently, but have the same constraints in the same order. -/
structure MethodDef.Declares (m : MethodDef) (op : Operation) : Prop where
  isPublic : m.isPublic = true
  name : m.name = op.name
  params : m.params = op.params
  ret : m.ret = op.ret
  constraints : m.generics.map (·.constraints) = op.generics.map (·.constraints)

/-- An operator of the operation's symbol between exactly a type and the operation's parameter, in
the order of a side, with the operation's result. -/
def OperatorDef.Declares (o : OperatorDef) (ty : ImplType) (symbol : BinaryOp) (side : Side)
    (op : Operation) : Prop :=
  o.op = symbol ∧ o.ret = op.ret ∧
    ∃ other, op.params = [other] ∧ (o.left, o.right) = side.arrange ty.toRef other

/-- A conversion of a kind from a type to the operation's result. -/
def ConversionDef.Declares (c : ConversionDef) (ty : ImplType) (kind : ConversionKind)
    (op : Operation) : Prop :=
  c.kind = kind ∧ c.source = ty.toRef ∧ c.target = op.ret

/-- Among the members is one that is exactly what an operation asks of a type. -/
def Members.Declare (ms : Members) (ty : ImplType) (op : Operation) : Prop :=
  match op.kind with
  | .method => ∃ m ∈ ms.methods, m.isStatic = false ∧ m.Declares op
  | .staticMethod => ∃ m ∈ ms.methods, m.isStatic = true ∧ m.Declares op
  | .conversion kind => ∃ c ∈ ms.conversions, c.Declares ty kind op
  | .operator symbol side => ∃ o ∈ ms.operators, o.Declares ty symbol side op
  | .getter | .setter => False

theorem exists_mem_locate {α : Type} (owner : ImplType) {members : List α} {a : α}
    (h : a ∈ members) : ∃ located ∈ locate owner members, located.decl = a := by
  obtain ⟨i, hi, rfl⟩ := List.mem_iff_getElem.1 h
  refine ⟨⟨owner, i, members[i]⟩, ?_, rfl⟩
  exact List.mem_mapIdx.2 ⟨i, hi, rfl⟩

/-! ## Bindings that cost nothing -/

/-- If something costs nothing, then so does the first of what costs the least. -/
theorem Binding.exists_minOn?_of_mem {bindings : List Binding} {b : Binding} (h : b ∈ bindings)
    (free : b.cost = 0) : ∃ best, bindings.minOn? Binding.cost = some best ∧ best.cost = 0 := by
  have hsome := List.isSome_minOn?_of_mem (f := Binding.cost) h
  refine ⟨_, (Option.some_get hsome).symm, ?_⟩
  have hle := List.apply_get_minOn?_le_of_mem (f := Binding.cost) h
  rw [free] at hle
  exact Nat.le_zero.1 hle

namespace Registry

variable {r : Registry}

theorem coercion?_self (ty : TypeRef) : r.coercion? ty ty = some .identity := by
  simp [coercion?]

theorem resultCoercion?_self (ty : TypeRef) : r.resultCoercion? ty ty = some .identity := by
  simp [resultCoercion?, coercion?_self]

theorem mapM_coercion?_self (tys : List TypeRef) :
    ((tys.zip tys).mapM fun (source, target) => r.coercion? source target) =
      some (tys.map fun _ => .identity) := by
  induction tys with
  | nil => rfl
  | cons ty tys ih =>
      rw [List.zip_cons_cons, List.mapM_cons, ih]
      simp [coercion?_self]

/-! ## Methods -/

/-- The type's own members come first. -/
theorem memberSources_of_members? {ty : ImplType} {ms : Members} (h : r.members? ty = some ms) :
    ∃ bases, r.memberSources ty = (ty, ms) :: bases := by
  cases ty with
  | builtin b =>
      have hb : r.builtinMembers b = some ms := h
      exact ⟨[], by simp [memberSources, hb]⟩
  | named idx =>
      obtain ⟨decl, hdecl, rfl⟩ := Option.map_eq_some_iff.1 h
      simp only [memberSources, baseChain]
      unfold baseWalk
      rw [hdecl]
      exact ⟨_, rfl⟩

theorem mem_methods_of_declares {ty : ImplType} {ms : Members} {op : Operation} {m : MethodDef}
    (own : r.members? ty = some ms) (hm : m ∈ ms.methods) (declares : m.Declares op)
    {filter : MethodFilter} (admits : filter.admits m = true) :
    ∃ located ∈ r.methods ty (some op.name) (some op.arity) filter, located.decl = m := by
  obtain ⟨located, hlocated, rfl⟩ := exists_mem_locate ty hm
  obtain ⟨bases, hsources⟩ := memberSources_of_members? own
  have hall : located ∈ r.allMethods ty := by
    unfold allMethods
    rw [hsources]
    exact List.mem_append_left _ hlocated
  have harity : op.arity = located.decl.arity := by
    simp [Signature.arity, declares.params]
  refine ⟨located, List.mem_filter.2 ⟨hall, ?_⟩, rfl⟩
  simp [declares.isPublic, admits, declares.name, harity]

theorem bindMethod?_of_declares {op : Operation} {m : Located MethodDef}
    (declares : m.decl.Declares op) : ∃ b, r.bindMethod? op m = some b ∧ b.cost = 0 := by
  refine ⟨{ operation := op, target := .method m, args := op.params.map fun _ => .identity },
    ?_, ?_⟩
  · unfold bindMethod?
    rw [declares.params, declares.ret, mapM_coercion?_self, resultCoercion?_self]
    rfl
  · simp [Binding.cost, Coercion.isIdentity]

/-- A method operation is bound at no cost to a method declared for it. -/
theorem resolveMethod_of_declares (config : Config) {ty : ImplType} {ms : Members}
    {op : Operation} {m : MethodDef} (accepted : op.fault? = none) (bounds : op.BoundsDeclared)
    (own : r.members? ty = some ms) (hm : m ∈ ms.methods) (declares : m.Declares op)
    {filter : MethodFilter} (admits : filter.admits m = true) :
    ∃ b, r.resolveMethod config ty op filter = some b ∧ b.cost = 0 := by
  obtain ⟨located, hmem, rfl⟩ := mem_methods_of_declares own hm declares admits
  have hunifies :
      r.unifies config.substituteParams op.toSignature located.decl.toSignature = true :=
    unifies_of_same _ declares.params declares.ret declares.constraints
      (fun i hi => op.lt_of_param_mem accepted hi) bounds
  obtain ⟨b, hb, free⟩ := bindMethod?_of_declares (r := r) declares
  have hfound : b ∈ (r.unifyingMethods ty op.name op.toSignature filter
      config.substituteParams).filterMap (r.bindMethod? op) :=
    List.mem_filterMap.2 ⟨located, List.mem_filter.2 ⟨hmem, hunifies⟩, hb⟩
  exact Binding.exists_minOn?_of_mem hfound free

/-! ## Conversions and operators -/

/-- A conversion operation is bound at no cost to a conversion declared for it. -/
theorem resolveConversion_of_declares (config : Config) {ty : ImplType} {ms : Members}
    {op : Operation} {kind : ConversionKind} {c : ConversionDef} (own : r.members? ty = some ms)
    (hc : c ∈ ms.conversions) (declares : c.Declares ty kind op) :
    ∃ b, r.resolveConversion config ty op kind = some b ∧ b.cost = 0 := by
  obtain ⟨hkind, hsource, htarget⟩ := declares
  obtain ⟨located, hlocated, rfl⟩ := exists_mem_locate ty hc
  have hmem : located ∈ r.conversions ty kind := by
    unfold conversions
    rw [own]
    exact List.mem_filter.2 ⟨hlocated, by simp [hkind, hsource]⟩
  unfold resolveConversion
  cases hfind : (r.conversions ty kind).find? (·.decl.target = op.ret) with
  | none => exact absurd htarget (by simpa using List.find?_eq_none.1 hfind located hmem)
  | some found =>
      exact ⟨{ operation := op, target := .conversion found }, rfl,
        by simp [Binding.cost, Coercion.isIdentity]⟩

theorem bindOperator?_arrange (op : Operation) (side : Side) (this other : TypeRef)
    (target : Target) : ∃ b, r.bindOperator? op side this other target
      (side.arrange this other).1 (side.arrange this other).2 op.ret = some b ∧ b.cost = 0 := by
  refine ⟨{ operation := op, target, args := [.identity] }, ?_, ?_⟩
  · unfold bindOperator? operandCoercions?
    cases side <;> simp [Side.arrange, coercion?_self, resultCoercion?_self]
  · simp [Binding.cost, Coercion.isIdentity]

/-- An operator operation is bound at no cost to an operator declared for it. -/
theorem resolveOperator_of_declares (config : Config) {ty : ImplType} {ms : Members}
    {op : Operation} {symbol : BinaryOp} {side : Side} {o : OperatorDef}
    (own : r.members? ty = some ms) (ho : o ∈ ms.operators)
    (declares : o.Declares ty symbol side op) :
    ∃ b, r.resolveOperator config ty op symbol side = some b ∧ b.cost = 0 := by
  obtain ⟨hsymbol, hret, other, hparams, harranged⟩ := declares
  obtain ⟨located, hlocated, rfl⟩ := exists_mem_locate ty ho
  have hmem : located ∈ r.operators ty (some symbol) := by
    unfold operators
    rw [own]
    exact List.mem_filter.2 ⟨hlocated, by simp [hsymbol]⟩
  obtain ⟨b, hb, free⟩ := bindOperator?_arrange (r := r) op side ty.toRef other
    (.operator located)
  rw [← harranged, ← hret] at hb
  have hfound : b ∈ (r.operators ty (some symbol)).filterMap fun o =>
      r.bindOperator? op side ty.toRef other (.operator o) o.decl.left o.decl.right o.decl.ret :=
    List.mem_filterMap.2 ⟨located, hmem, hb⟩
  obtain ⟨best, hbest, hcost⟩ := Binding.exists_minOn?_of_mem hfound free
  -- The type itself is the first owner that is asked.
  have hfirst : ∃ owners, operatorOwners config ty other = ty :: owners := by
    unfold operatorOwners
    split
    · split <;> exact ⟨_, rfl⟩
    · exact ⟨_, rfl⟩
  obtain ⟨owners, howners⟩ := hfirst
  refine ⟨best, ?_, hcost⟩
  have hdeclared : r.resolveDeclared op symbol side ty.toRef other ty = some best := hbest
  simp [resolveOperator, hparams, howners, hdeclared]

/-! ## Any operation -/

/-- An operation that extraction lets through, and whose bounds mention only its own generic
parameters, is bound at no cost on every type that itself declares it exactly, whatever the
configuration. -/
theorem resolve_of_declares {r : Registry} (config : Config) {contract : TypeIdx}
    {spec : ContractSpec} {op : Operation} {ty : ImplType} {ms : Members}
    (extracted : r.extract contract = .ok spec) (mem : op ∈ spec.operations)
    (bounds : op.BoundsDeclared) (own : r.members? ty = some ms) (declared : ms.Declare ty op) :
    ∃ b, r.resolve config ty op = some b ∧ b.cost = 0 := by
  have accepted := fault?_of_extract extracted op mem
  unfold Members.Declare at declared
  unfold resolve
  cases hkind : op.kind with
  | method =>
      simp only [hkind] at declared
      obtain ⟨m, hm, hstatic, declares⟩ := declared
      exact resolveMethod_of_declares config accepted bounds own hm declares
        (by simp [MethodFilter.admits, MethodFilter.onInstance, hstatic])
  | staticMethod =>
      simp only [hkind] at declared
      obtain ⟨m, hm, hstatic, declares⟩ := declared
      exact resolveMethod_of_declares config accepted bounds own hm declares
        (by simp [MethodFilter.admits, MethodFilter.onType, hstatic])
  | conversion kind =>
      simp only [hkind] at declared
      obtain ⟨c, hc, declares⟩ := declared
      exact resolveConversion_of_declares config own hc declares
  | operator symbol side =>
      simp only [hkind] at declared
      obtain ⟨o, ho, declares⟩ := declared
      exact resolveOperator_of_declares config own ho declares
  | getter => simp [hkind] at declared
  | setter => simp [hkind] at declared

/-! ### Bounds that refer to each other -/

/-- Two parameters, each bounded by the other. -/
def linkOperation : Operation where
  name := "link"
  kind := .method
  params := [.param 0, .param 1]
  ret := .param 1
  generics := [⟨"T", [.reference, .bound (.param 1)]⟩, ⟨"U", [.bound (.param 0), .bound .str]⟩]

/-- The same with other names. -/
def linkMethod : MethodDef where
  name := "link"
  params := [.param 0, .param 1]
  ret := .param 1
  generics := [⟨"A", [.reference, .bound (.param 1)]⟩, ⟨"B", [.bound (.param 0), .bound .str]⟩]
  body := fun _ args => pure (args.headD .null)

/-- A contract that asks for the operation, and a class that declares it. -/
def linkRegistry : Registry where
  types := #[
    ⟨"Linkable", true, .contract { operations := [linkOperation] }⟩,
    ⟨"Node", true, .implementation false { members := { methods := [linkMethod] } }⟩]

theorem resolve_linkOperation :
    linkRegistry.extract ⟨0⟩ = .ok ⟨⟨0⟩, "Linkable", [linkOperation]⟩ ∧
      linkOperation.BoundsDeclared ∧
      linkRegistry.members? (.named ⟨1⟩) = some { methods := [linkMethod] } ∧
      Members.Declare { methods := [linkMethod] } (.named ⟨1⟩) linkOperation ∧
      ∃ b, linkRegistry.resolve { substituteParams := true } (.named ⟨1⟩) linkOperation = some b ∧
        b.cost = 0 := by
  have hextract : linkRegistry.extract ⟨0⟩ = .ok ⟨⟨0⟩, "Linkable", [linkOperation]⟩ := by
    rw [extract, ancestry_of_parents_eq_nil rfl]
    rfl
  have hbounds : linkOperation.BoundsDeclared := by
    simp [Operation.BoundsDeclared, linkOperation]
  have hdeclare : Members.Declare { methods := [linkMethod] } (.named ⟨1⟩) linkOperation :=
    ⟨linkMethod, List.mem_singleton.2 rfl, rfl, ⟨rfl, rfl, rfl, rfl, rfl⟩⟩
  exact ⟨hextract, hbounds, rfl, hdeclare,
    resolve_of_declares _ hextract (List.mem_singleton.2 rfl) hbounds rfl hdeclare⟩

end Registry

end Contracts
