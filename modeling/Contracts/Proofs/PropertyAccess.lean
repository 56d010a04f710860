import Contracts.Proofs.Dispatch

set_option autoImplicit false

/-! # Reading a property

A property is read by calling an operation under a name made from the property's, and an operation
of another kind may have just that name. `Adapter.reads_of_madeFor` says what reading a property
that the contract asks for comes to: the getter of the property, if the first operation of that name
without parameters is a getter, and otherwise that operation. -/

namespace Contracts

/-! ## The names of getters -/

namespace Operation

variable {op : Operation} {p : String}

/-- Setters are called by other names, and a getter's name tells the property. -/
theorem slotName_eq_get_iff : op.slotName = "get_" ++ p ↔
    (op.kind = .getter ∧ op.name = p) ∨
      (op.kind ≠ .getter ∧ op.kind ≠ .setter ∧ op.name = "get_" ++ p) := by
  unfold slotName
  cases op.kind with
  | getter => simp
  | setter =>
      have hstart : "set_" ++ op.name ≠ "get_" ++ p := fun h => by
        simpa using congrArg String.toList h
      simp [hstart]
  | method | staticMethod | conversion | operator => simp

theorem accepts_nil (r : Registry) (op : Operation) : op.accepts r [] = op.params.isEmpty := by
  unfold accepts
  cases op.params <;> simp

end Operation

namespace ContractSpec

/-- The contract asks for a property that can be read. -/
def Reads (spec : ContractSpec) (p : String) : Prop :=
  ∃ op ∈ spec.operations, op.kind = .getter ∧ op.name = p

/-- The operation that is called when a property is read. -/
def reader? (spec : ContractSpec) (p : String) : Option Operation :=
  spec.operations.find? fun op => op.slotName = "get_" ++ p && op.params.isEmpty

/-- There is one if there is a getter. -/
theorem exists_reader? {spec : ContractSpec} {p : String} (reads : spec.Reads p)
    (inShape : ∀ op ∈ spec.operations, op.InShape) : ∃ op, spec.reader? p = some op := by
  obtain ⟨op, hop, hkind, hname⟩ := reads
  have hslot : op.slotName = "get_" ++ p := Operation.slotName_eq_get_iff.2 (Or.inl ⟨hkind, hname⟩)
  have hparams : op.params = [] := ((inShape op hop).getter hkind).1
  have hpasses : (op.slotName = "get_" ++ p && op.params.isEmpty) = true := by
    simp [hslot, hparams]
  exact Option.isSome_iff_exists.1 (List.find?_isSome.2 ⟨op, hop, hpasses⟩)

end ContractSpec

/-! ## Getters of properties -/

theorem Registry.exists_property?_of_resolve {r : Registry} {config : Config} {ty : ImplType}
    {op : Operation} {b : Binding} (hkind : op.kind = .getter)
    (h : r.resolve config ty op = some b) :
    ∃ p getter, r.property? ty op.name = some p ∧ b.target = .property p ∧
      p.getter = some getter := by
  simp only [resolve, hkind] at h
  obtain ⟨p, getter, ret, rfl, hp, hgetter, -⟩ := exists_of_resolveGetter h
  exact ⟨p, getter, hp, rfl, hgetter⟩

/-- Only getters and setters are bound to properties. -/
theorem Registry.target_ne_property_of_resolve {r : Registry} {config : Config} {ty : ImplType}
    {op : Operation} {b : Binding} (hgetter : op.kind ≠ .getter) (hsetter : op.kind ≠ .setter)
    (h : r.resolve config ty op = some b) (p : PropertyDef) : b.target ≠ .property p := by
  unfold resolve at h
  split at h
  · obtain ⟨m, -, -, hb⟩ := exists_of_resolveMethod h
    simp [target_of_bindMethod? hb]
  · obtain ⟨m, -, -, hb⟩ := exists_of_resolveMethod h
    simp [target_of_bindMethod? hb]
  · obtain ⟨target, rfl, ⟨c, rfl, -⟩ | ⟨q, rfl⟩ | rfl⟩ := exists_of_resolveConversion h <;> simp
  · obtain ⟨other, -, ⟨o, hb⟩ | ⟨q, left, right, result, hb⟩⟩ := exists_of_resolveOperator h
    all_goals
      obtain ⟨receiver, arg, ret, rfl, -⟩ := exists_of_bindOperator? hb
      simp
  · exact absurd ‹_› hgetter
  · exact absurd ‹_› hsetter

theorem Binding.run_of_getter {b : Binding} {p : PropertyDef} {getter : Body} {v : Value}
    (hkind : b.operation.kind = .getter) (htarget : b.target = .property p)
    (hgetter : p.getter = some getter) (hv : v ≠ .null) (name : String) (args : List Value) :
    b.run name (some v) args =
      getter (some v) [] >>= fun w => Eval.ofExcept (b.ret.apply w) := by
  simp only [Binding.run, htarget, hkind, hgetter, requireInstance_of_ne_null hv, Eval.ofExcept_ok,
    pure_bind]

namespace Adapter

variable {a : Adapter} {r : Registry} {config : Config} {ty : ImplType} {spec : ContractSpec}
  {v : Value} {p : String}

/-- **Reading a property.** A contract asks for a property that can be read, and an adapter for it
holds an instance. Among the contract's operations, whatever they are and in whatever order, the
first without parameters that is called by the name for reading the property is the one that runs.
If it is a getter, then reading runs the getter of the property it is bound to, which is the
instance's property of the name, and whatever else the contract asks for makes no difference. If it
is not, then it is a method or a conversion, and runs in the getter's place. -/
theorem reads_of_madeFor (made : a.MadeFor r config ty spec) (held : a.self? = some v)
    (reads : spec.Reads p) :
    ∃ op b, spec.reader? p = some op ∧ r.resolve config ty op = some b ∧
      (op.kind = .getter → op.name = p ∧ ∃ property getter, r.property? ty p = some property ∧
        b.target = .property property ∧ property.getter = some getter ∧
        ∀ now, a.get now p = getter (some v) [] >>= fun w => Eval.ofExcept (b.ret.apply w)) ∧
      (op.kind ≠ .getter → op.name = "get_" ++ p ∧ (∀ property, b.target ≠ .property property) ∧
        ∀ now, a.get now p = b.run ("get_" ++ p) (some v) []) := by
  have inShape := Registry.inShape_of_extract made.extracted
  obtain ⟨op, hreader⟩ := spec.exists_reader? reads inShape
  have hcalled : op.slotName = "get_" ++ p := AdapterType.name_of_find? hreader
  obtain ⟨b, hresolve, hcall⟩ : ∃ b, r.resolve config ty op = some b ∧
      ∀ now, a.get now p = b.run ("get_" ++ p) (some v) [] := by
    have hfirst : ∀ now, spec.operations.find?
        (fun op => op.slotName = "get_" ++ p && op.accepts now []) = some op := fun now => by
      simpa only [Operation.accepts_nil, ContractSpec.reader?] using hreader
    obtain ⟨b, hresolve, -⟩ := made.call_of_find? r (hfirst r)
    refine ⟨b, hresolve, fun now => ?_⟩
    obtain ⟨b', hresolve', hcall⟩ := made.call_of_find? now (hfirst now)
    obtain rfl := Option.some.inj (hresolve.symm.trans hresolve')
    rw [get, hcall, held]
  have hoperation := Registry.operation_of_resolve hresolve
  refine ⟨op, b, hreader, hresolve, fun hkind => ?_, fun hkind => ?_⟩
  · rcases Operation.slotName_eq_get_iff.1 hcalled with ⟨-, hname⟩ | ⟨hother, -⟩
    · obtain ⟨property, getter, hproperty, htarget, hgetter⟩ :=
        Registry.exists_property?_of_resolve hkind hresolve
      rw [hname] at hproperty
      refine ⟨hname, property, getter, hproperty, htarget, hgetter, fun now => ?_⟩
      rw [hcall, Binding.run_of_getter (by rw [hoperation, hkind]) htarget hgetter
        (made.held v held).1]
    · exact absurd hkind hother
  · rcases Operation.slotName_eq_get_iff.1 hcalled with ⟨hgetter, -⟩ | ⟨-, hsetter, hname⟩
    · exact absurd hgetter hkind
    · exact ⟨hname, Registry.target_ne_property_of_resolve hkind hsetter hresolve, hcall⟩

/-! ### Labels -/

/-- The contract of labels asks for the property, and for a method that looks like its getter. -/
def labelSpec : ContractSpec where
  contract := ⟨0⟩
  name := "Labelled"
  operations := [{ name := "label", kind := .getter, params := [], ret := .str },
    { name := "get_label", kind := .method, params := [], ret := .str }]

/-- The class of crates. -/
def crateClass : TypeDef := Registry.shelfRegistry.types[1]

/-- The contract and the class. -/
def labelRegistry : Registry where
  types := #[⟨"Labelled", true, .contract { operations := labelSpec.operations }⟩, crateClass]

/-- A crate seen by its label. -/
def labelAdapter : Adapter where
  type := .synthesize 1 (labelRegistry.matchSpec {} (.named ⟨1⟩) labelSpec)
  self? := some (.object ⟨0, ⟨1⟩⟩)

/-- One crate, with a label. -/
def crateHeap : Heap := ⟨#[[("label", .str "fragile")]]⟩

/-- The method that stands after the getter makes no difference. -/
theorem reads_of_madeFor_label :
    labelAdapter.get labelRegistry "label" crateHeap = .ok (.str "fragile") crateHeap := by
  have made : labelAdapter.MadeFor labelRegistry {} (.named ⟨1⟩) labelSpec := by
    refine ⟨?_, by decide +kernel, rfl, ?_⟩
    · rw [Registry.extract, Registry.ancestry_of_parents_eq_nil rfl]
      decide +kernel
    · rintro v ⟨⟩
      exact ⟨by simp, rfl⟩
  obtain ⟨op, b, hreader, hresolve, hgetter, -⟩ := reads_of_madeFor made rfl
    ⟨_, List.mem_cons_self, rfl, rfl⟩
  obtain rfl := Option.some.inj hreader
  obtain ⟨-, property, getter, hproperty, -, hbody, hget⟩ := hgetter rfl
  obtain rfl := Option.some.inj hproperty
  obtain rfl := Option.some.inj hbody
  obtain rfl := Option.some.inj hresolve
  rw [hget]
  rfl

/-- On a shelf the method comes first, and what runs to read the label is the method. -/
theorem reads_shadowed :
    Workspace.crateAdapter.MadeFor Registry.shelfRegistry { substituteParams := true } (.named ⟨1⟩)
        Workspace.shelfSpec ∧
      Workspace.crateAdapter.self? = some (.object ⟨0, ⟨1⟩⟩) ∧
      Workspace.shelfSpec.Reads "label" ∧
      Registry.shelfRegistry.property? (.named ⟨1⟩) "label" = some (.ofField "label" .str) ∧
      (∃ getter, (PropertyDef.ofField "label" .str).getter = some getter ∧
        getter (some (.object ⟨0, ⟨1⟩⟩)) [] crateHeap = .ok (.str "fragile") crateHeap) ∧
      Workspace.crateAdapter.get Registry.shelfRegistry "label" crateHeap = .ok .null crateHeap :=
  ⟨Workspace.crateAdapter_madeFor, rfl, ⟨_, List.mem_cons_of_mem _ List.mem_cons_self, rfl, rfl⟩,
    rfl, ⟨_, rfl, rfl⟩, rfl⟩

end Adapter

end Contracts
