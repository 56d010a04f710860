import Contracts.Proofs.BaseChain
import Contracts.Proofs.Resolution

set_option autoImplicit false

/-! # Subclasses provide what their bases provide

A type on the base chain of another offers it all of its public instance methods, and those of its
properties that no nearer type declares under the same name. So the method operations that are bound
on the base are bound on the derived type, and accessors are bound to the same property
(`Registry.resolve_of_baseChain`). The derived type may have better methods of its own, so a method
operation need not be bound to the same method. -/

namespace Contracts

/-- The type itself declares a public property of the name. -/
def TypeDef.DeclaresProperty (d : TypeDef) (name : String) : Prop :=
  ∃ p ∈ d.members.properties, p.name = name ∧ p.isPublic = true

namespace Registry

variable {r : Registry} {config : Config} {derived base : TypeIdx} {decl : TypeDef}
  {op : Operation}

/-! ## Instance methods -/

/-- The instance methods of a type are those of all types that it has members from. -/
theorem mem_allMethods_iff {ty : ImplType} {m : Located MethodDef}
    (onInstance : m.decl.isStatic = false) : m ∈ r.allMethods ty ↔
      ∃ source ∈ r.memberSources ty, m ∈ locate source.1 source.2.methods := by
  unfold allMethods
  cases r.memberSources ty with
  | nil => simp
  | cons own bases => simp [onInstance]

/-- A derived type has the members of every type that its base has them from. -/
theorem memberSources_subset (h : r.DescendsFrom derived base) :
    r.memberSources (.named base) ⊆ r.memberSources (.named derived) := by
  intro source hsource
  obtain ⟨⟨idx, d⟩, hmem, rfl⟩ := List.mem_map.1 hsource
  obtain ⟨hd, hreach⟩ := mem_baseChain_iff.1 hmem
  exact List.mem_map.2 ⟨(idx, d), mem_baseChain_iff.2 ⟨hd, h.trans hreach⟩, rfl⟩

/-- A derived type has the public instance methods of its base. -/
theorem methods_subset (h : r.DescendsFrom derived base) (name : Option String)
    (arity : Option Nat) :
    r.methods (.named base) name arity .onInstance ⊆
      r.methods (.named derived) name arity .onInstance := by
  intro m hm
  obtain ⟨hall, hpasses⟩ := List.mem_filter.1 hm
  have honInstance : m.decl.isStatic = false := by
    simp only [Bool.and_eq_true, MethodFilter.admits_onInstance, Bool.not_eq_true'] at hpasses
    exact hpasses.1.1.2
  refine List.mem_filter.2 ⟨?_, hpasses⟩
  obtain ⟨source, hsource, hlocated⟩ := (mem_allMethods_iff honInstance).1 hall
  exact (mem_allMethods_iff honInstance).2 ⟨source, memberSources_subset h hsource, hlocated⟩

theorem isSome_resolveMethod_of_descendsFrom (h : r.DescendsFrom derived base)
    (bound : (r.resolveMethod config (.named base) op .onInstance).isSome = true) :
    (r.resolveMethod config (.named derived) op .onInstance).isSome = true := by
  obtain ⟨m, hm, hunifies, hbind⟩ := isSome_resolveMethod_iff.1 bound
  exact isSome_resolveMethod_iff.2 ⟨m, methods_subset h _ _ hm, hunifies, hbind⟩

/-! ## Properties -/

theorem property?_named (r : Registry) (idx : TypeIdx) (name : String) :
    r.property? (.named idx) name = (r.baseChain idx).findSome? fun t =>
      t.2.members.properties.find? fun p => p.name == name && p.isPublic := by
  rw [property?, memberSources, List.findSome?_map]
  rfl

/-- A derived type has the property of its base if no nearer type declares one. -/
theorem property?_of_split {before after : List (TypeIdx × TypeDef)} {name : String}
    (chain : r.baseChain derived = before ++ (base, decl) :: after)
    (free : ∀ t ∈ before, ¬t.2.DeclaresProperty name) :
    r.property? (.named derived) name = r.property? (.named base) name := by
  rw [property?_named, property?_named]
  refine findSome?_baseChain_of_split _ chain fun t ht => ?_
  refine List.find?_eq_none.2 fun p hp hfits => free t ht ⟨p, hp, ?_⟩
  simpa using hfits

/-- Accessors are bound to whatever property the type has, and to nothing else. -/
theorem resolve_accessor_congr (accessor : op.kind = .getter ∨ op.kind = .setter)
    {ty ty' : ImplType} (same : r.property? ty' op.name = r.property? ty op.name) {b : Binding}
    (h : r.resolve config ty op = some b) :
    r.resolve config ty' op = some b ∧ ∃ p, b.target = .property p := by
  rcases accessor with hkind | hkind
  · have hresolve : ∀ t, r.resolve config t op = r.resolveGetter t op := by
      intro t
      rw [resolve, hkind]
    rw [hresolve] at h ⊢
    constructor
    · rw [← h, resolveGetter, same, resolveGetter]
    · obtain ⟨p, getter, ret, rfl, -⟩ := exists_of_resolveGetter h
      exact ⟨p, rfl⟩
  · have hresolve : ∀ t, r.resolve config t op = r.resolveSetter t op := by
      intro t
      rw [resolve, hkind]
    rw [hresolve] at h ⊢
    constructor
    · rw [← h, resolveSetter, same, resolveSetter]
    · obtain ⟨p, setter, param, arg, rfl, -⟩ := exists_of_resolveSetter h
      exact ⟨p, rfl⟩

/-! ## Both -/

/-- **Subclasses inherit satisfaction.** The chain of a type has exactly the declared types that its
base links lead to. Wherever a base is on it, the method operations that are bound on the base are
bound on the derived type, and accessors are bound alike, to the property that the base has, unless
a type before the base declares a public property of their name. -/
theorem resolve_of_baseChain (config : Config) (derived : TypeIdx)
    (declared : r.type? base = some decl) :
    ((base, decl) ∈ r.baseChain derived ↔ r.DescendsFrom derived base) ∧
      ∀ before after, r.baseChain derived = before ++ (base, decl) :: after →
        (∀ op, op.kind = .method → (r.resolve config (.named base) op).isSome = true →
          (r.resolve config (.named derived) op).isSome = true) ∧
        ∀ op b, op.kind = .getter ∨ op.kind = .setter →
          (∀ t ∈ before, ¬t.2.DeclaresProperty op.name) →
          r.resolve config (.named base) op = some b →
            r.resolve config (.named derived) op = some b ∧ ∃ p, b.target = .property p := by
  have hchain : (base, decl) ∈ r.baseChain derived ↔ r.DescendsFrom derived base := by
    rw [mem_baseChain_iff, and_iff_right declared]
  refine ⟨hchain, fun before after hsplit => ⟨fun op hkind hbound => ?_, ?_⟩⟩
  · have hdescends := hchain.1 (by simp [hsplit])
    simp only [resolve, hkind] at hbound ⊢
    exact isSome_resolveMethod_of_descendsFrom hdescends hbound
  · intro op b haccessor hfree hb
    exact resolve_accessor_congr haccessor (property?_of_split hsplit hfree) hb

/-! ### Bases in a cycle -/

/-- An area, as an integer. -/
def areaOperation : Operation where
  name := "area"
  kind := .method
  params := []
  ret := .builtin (.int .i32)

/-- A name to be read. -/
def nameGetter : Operation where
  name := "name"
  kind := .getter
  params := []
  ret := .str

/-- A square has a name of its own, which is nobody's business. -/
def square : TypeDef :=
  ⟨"Square", true, .implementation false {
    base := some ⟨1⟩
    members := { properties := [{ PropertyDef.ofField "name" .str with isPublic := false }] } }⟩

/-- A rectangle adds nothing to a shape. -/
def rectangle : TypeDef := ⟨"Rectangle", true, .implementation false { base := some ⟨2⟩ }⟩

/-- A shape has an area and a name, and is based on the square by mistake. -/
def shape : TypeDef :=
  ⟨"Shape", true, .implementation false {
    base := some ⟨0⟩
    members := {
      methods := [{ toSignature := areaOperation.toSignature, name := "area",
                    body := fun _ _ => pure (IntType.i32.wrap 1) }]
      properties := [.ofField "name" .str] } }⟩

/-- Three shapes, each the base of another one. -/
def shapeRegistry : Registry where
  types := #[square, rectangle, shape]

theorem resolve_of_baseChain_square :
    shapeRegistry.baseChain ⟨0⟩ =
        [(⟨0⟩, square), (⟨1⟩, rectangle)] ++ (⟨2⟩, shape) :: [(⟨0⟩, square)] ∧
      (shapeRegistry.resolve {} (.named ⟨2⟩) areaOperation).isSome = true ∧
      (shapeRegistry.resolve {} (.named ⟨0⟩) areaOperation).isSome = true ∧
      ∃ b, shapeRegistry.resolve {} (.named ⟨2⟩) nameGetter = some b ∧
        shapeRegistry.resolve {} (.named ⟨0⟩) nameGetter = some b := by
  have hchain : shapeRegistry.baseChain ⟨0⟩ =
      [(⟨0⟩, square), (⟨1⟩, rectangle)] ++ (⟨2⟩, shape) :: [(⟨0⟩, square)] := rfl
  have hdeclared : shapeRegistry.type? ⟨2⟩ = some shape := rfl
  obtain ⟨-, hinherits⟩ := resolve_of_baseChain {} ⟨0⟩ hdeclared
  obtain ⟨hmethods, haccessors⟩ := hinherits _ _ hchain
  have harea : (shapeRegistry.resolve {} (.named ⟨2⟩) areaOperation).isSome = true := by
    decide +kernel
  have hname : (shapeRegistry.resolve {} (.named ⟨2⟩) nameGetter).isSome = true := by
    decide +kernel
  obtain ⟨b, hb⟩ := Option.isSome_iff_exists.1 hname
  have hfree : ∀ t ∈ [((⟨0⟩ : TypeIdx), square), (⟨1⟩, rectangle)],
      ¬t.2.DeclaresProperty "name" := by
    simp [TypeDef.DeclaresProperty, square, rectangle, TypeDef.members, TypeDef.implementation]
  exact ⟨hchain, harea, hmethods areaOperation rfl harea, b, hb,
    (haccessors nameGetter b (Or.inl rfl) hfree hb).1⟩

end Registry

end Contracts
