import Contracts.Proofs.Coercibility

set_option autoImplicit false

/-! # What a coercion lets in

Beforehand it is decided from two types alone which coercion takes the one to the other
(`Registry.coercion?`). When a value comes along the coercion is applied to it (`Coercion.apply`),
and whether a type takes the value is looked up in the value (`Registry.accepts`). The three agree
(`Registry.accepts_coerced`). A coercion succeeds on all that its source type accepts, and its
target type accepts the outcome, but for one case: a class may name a struct as its base, and `null`
goes along that link as along any other, but is no struct. And a type accepts a value exactly if the
coercion from the type of the value keeps the value as it is; what would have to be widened first is
not accepted. -/

namespace Contracts

/-- The coercions that hand on the value that they are given. -/
theorem Coercion.keeps_iff {c : Coercion} :
    (∀ v, c.apply v = .ok v) ↔ c = .identity ∨ c = .box ∨ c = .upcast := by
  constructor
  · intro keeps
    cases c with
    | identity => exact Or.inl rfl
    | box => exact Or.inr (Or.inl rfl)
    | upcast => exact Or.inr (Or.inr rfl)
    | widen source target => exact absurd (keeps .void) (by simp [apply, Value.widen?])
  · rintro (rfl | rfl | rfl) v <;> rfl

/-- Nothing is an instance of `void`. -/
theorem Value.toRef_ne_void {v : Value} {ty : ImplType} (h : v.runtimeType? = some ty) :
    ty.toRef ≠ .void := by
  cases v with
  | void | null => simp [runtimeType?] at h
  | bool | int | float | str | object =>
      obtain rfl := Option.some.inj h
      simp [ImplType.toRef]

namespace Registry

variable {r : Registry} {source target : TypeRef} {v : Value}

/-! ## The absent value -/

variable (r) in
/-- The type is a declared struct. -/
def IsStruct (ty : TypeRef) : Prop :=
  ∃ idx decl, ty = .named idx ∧ r.type? idx = some decl ∧ decl.kind = .structType

theorem isValueType_named_iff {idx : TypeIdx} :
    r.isValueType (.named idx) = true ↔ r.IsStruct (.named idx) := by
  simp [isValueType, IsStruct, Option.any_eq_true]

/-- `null` is accepted wherever values are shared. -/
theorem accepts_null (r : Registry) (ty : TypeRef) : r.accepts ty .null = !r.isValueType ty := by
  cases ty with
  | builtin b => cases b <;> rfl
  | named idx => rfl
  | param i => rfl

/-- A built-in value type takes its values from value types only. -/
theorem isValueType_of_isAssignable {b : Builtin}
    (h : r.isAssignable source (.builtin b) = true) (hb : b.isValueType = true) :
    r.isValueType source = true := by
  cases isAssignable_iff.1 h with
  | same => exact hb
  | object => exact absurd hb Bool.false_ne_true
  | @widened a b wider =>
      cases a with
      | int t | float t => rfl
      | bool | str | object | void => simp [Builtin.widensTo] at wider

/-- Along assignability `null` comes as far as to a struct. -/
theorem accepts_null_iff (h : r.isAssignable source target = true)
    (accepted : r.accepts source .null = true) :
    r.accepts target .null = true ↔ ¬r.IsStruct target := by
  rw [accepts_null, Bool.not_eq_true', Bool.eq_false_iff, not_iff_not]
  cases target with
  | named idx => exact isValueType_named_iff
  | param i => simp [isValueType, IsStruct]
  | builtin b =>
      rw [accepts_null, Bool.not_eq_true'] at accepted
      refine iff_of_false (fun hb => ?_) (by simp [IsStruct])
      exact absurd (isValueType_of_isAssignable h hb) (by simp [accepted])

/-! ## Coercions of accepted values -/

/-- A coercion succeeds on what its source type accepts. Only `null` is then not accepted by the
target type, and by a struct alone. -/
theorem exists_apply_of_coercion? {c : Coercion} (h : r.coercion? source target = some c)
    (accepted : r.accepts source v = true) :
    ∃ w, c.apply v = .ok w ∧ (r.accepts target w = true ↔ ¬(v = .null ∧ r.IsStruct target)) := by
  by_cases hv : v = .null
  · subst hv
    rcases coercion?_cases h with ⟨a, b, rfl, rfl, wider, rfl⟩ | ⟨hkeep, hcase⟩
    · exact absurd rfl (ne_null_of_accepts_numeric accepted (Builtin.isNumeric_of_widensTo wider).1)
    · refine ⟨.null, hkeep .null, ?_⟩
      rw [and_iff_right rfl]
      rcases hcase with ⟨i, j, rfl, rfl⟩ | ⟨hassign, -⟩
      · exact iff_of_true (accepts_param j (by simp)) (by simp [IsStruct])
      · exact accepts_null_iff hassign accepted
  · obtain ⟨w, hw, hcarried, haccepts⟩ := accepts_of_coercion h accepted
    exact ⟨w, hw, iff_of_true (haccepts (hcarried.ne_null hv)) fun absent => hv absent.1⟩

/-! ## Acceptance by the type of the value -/

variable (r) in
/-- A value of the one type is one of the other as it is, without being widened. -/
structure Belongs (source target : TypeRef) : Prop where
  assignable : r.isAssignable source target = true
  narrow : ∀ a b, source = .builtin a → target = .builtin b → a.widensTo b = false

/-- A coercion that keeps values is there exactly if these belong to the target type. -/
theorem belongs_iff (concrete : target.isParam = false) :
    r.Belongs source target ↔ ∃ c, r.coercion? source target = some c ∧ ∀ v, c.apply v = .ok v := by
  constructor
  · rintro ⟨hassign, hnarrow⟩
    obtain ⟨c, hc⟩ := exists_coercion?_of_isAssignable hassign
    rcases coercion?_cases hc with ⟨a, b, rfl, rfl, wider, -⟩ | ⟨hkeep, -⟩
    · exact absurd (wider.symm.trans (hnarrow a b rfl rfl)) (by simp)
    · exact ⟨c, hc, hkeep⟩
  · rintro ⟨c, hc, hkeep⟩
    rcases coercion?_cases hc with ⟨a, b, -, -, -, rfl⟩ | ⟨-, ⟨i, j, -, rfl⟩ | hcase⟩
    · exact absurd (Coercion.keeps_iff.1 hkeep) (by simp)
    · exact absurd concrete (by simp [TypeRef.isParam])
    · exact ⟨hcase.1, hcase.2⟩

theorem Belongs.refl (r : Registry) (ty : TypeRef) : r.Belongs ty ty where
  assignable := r.isAssignable_self ty
  narrow a b ha hb := by
    obtain rfl := TypeRef.builtin.inj (ha.symm.trans hb)
    exact a.widensTo_self

/-- What is an instance of some type belongs to `object`. -/
theorem Belongs.object {ty : ImplType} (something : ty.toRef ≠ .void) :
    r.Belongs ty.toRef .object where
  assignable := isAssignable_iff.2 (.object (by cases ty <;> rfl) something)
  narrow a b _ hb := by
    obtain rfl := TypeRef.builtin.inj hb
    refine Bool.eq_false_iff.2 fun wider => ?_
    exact absurd (Builtin.isNumeric_of_widensTo wider).2 Bool.false_ne_true

/-- A type other than a generic parameter accepts what belongs to it, by the type of the value. -/
theorem accepts_iff_belongs {ty : ImplType} (h : v.runtimeType? = some ty)
    (concrete : target.isParam = false) :
    r.accepts target v = true ↔ r.Belongs ty.toRef target := by
  obtain ⟨hnull, -⟩ := Value.present_of_runtimeType? h
  constructor
  · intro accepted
    cases target with
    | param i => exact absurd concrete (by simp [TypeRef.isParam])
    | builtin b =>
        by_cases hobject : b = .object
        · rw [hobject]
          exact .object (Value.toRef_ne_void h)
        · -- Any other built-in type takes its own values only.
          have hb := builtin?_of_accepts accepted hobject hnull
          obtain rfl : ImplType.builtin b = ty := by
            cases v <;> simp_all [Value.runtimeType?, Value.builtin?]
          exact .refl r _
    | named idx =>
        obtain ⟨ref, rfl, hassign⟩ := (accepts_named_iff hnull).1 accepted
        obtain rfl := Option.some.inj h
        exact ⟨hassign, by simp [ImplType.toRef]⟩
  · intro belongs
    exact accepts_of_isAssignable belongs.assignable belongs.narrow (accepts_runtimeType h) hnull

/-! ## Both -/

/-- **Coercions keep acceptance.** A coercion between two types succeeds on every value that the one
accepts, and the other accepts the outcome, except where `null` has come to a struct. A type other
than a generic parameter accepts a value exactly if the coercion from the type of which the value is
an instance is the identity, boxes it, or is an upcast. -/
theorem accepts_coerced (r : Registry) :
    (∀ source target c v, r.coercion? source target = some c → r.accepts source v = true →
      ∃ w, c.apply v = .ok w ∧ (r.accepts target w = true ↔ ¬(v = .null ∧ r.IsStruct target))) ∧
    ∀ v ty target, v.runtimeType? = some ty → target.isParam = false →
      (r.accepts target v = true ↔
        ∃ c, r.coercion? ty.toRef target = some c ∧ (c = .identity ∨ c = .box ∨ c = .upcast)) := by
  refine ⟨fun source target c v h accepted => exists_apply_of_coercion? h accepted, ?_⟩
  intro v ty target h concrete
  rw [accepts_iff_belongs h concrete, belongs_iff concrete]
  simp only [Coercion.keeps_iff]

/-! ### A class based on a struct -/

/-- A point is a struct, and a pin is a class that is based on it. -/
def pinRegistry : Registry where
  types := #[
    ⟨"Point", true, .implementation true {}⟩,
    ⟨"Pin", true, .implementation false { base := some ⟨0⟩ }⟩]

theorem accepts_coerced_pin :
    (pinRegistry.coercion? (.named ⟨1⟩) (.named ⟨0⟩) = some .upcast ∧
        pinRegistry.accepts (.named ⟨1⟩) .null = true ∧
        ∃ w, Coercion.upcast.apply .null = .ok w ∧ pinRegistry.accepts (.named ⟨0⟩) w = false) ∧
      (∃ w, (Coercion.widen (.int .i8) (.int .i64)).apply (IntType.i8.wrap (-128)) = .ok w ∧
        pinRegistry.accepts (.builtin (.int .i64)) w = true) ∧
      pinRegistry.accepts (.named ⟨0⟩) (.object ⟨7, ⟨1⟩⟩) = true := by
  obtain ⟨hcoerced, hruntime⟩ := accepts_coerced pinRegistry
  have hassign : pinRegistry.isAssignable (.named ⟨1⟩) (.named ⟨0⟩) = true :=
    (pinRegistry.isAssignable_named_iff _ _).2 (.single List.mem_cons_self)
  have hupcast : pinRegistry.coercion? (.named ⟨1⟩) (.named ⟨0⟩) = some .upcast := by
    simp [coercion?, keepingCoercion?, hassign]
  have hnull : pinRegistry.accepts (.named ⟨1⟩) .null = true := rfl
  refine ⟨⟨hupcast, hnull, ?_⟩, ?_, ?_⟩
  · obtain ⟨w, hw, hstruct⟩ := hcoerced _ _ _ _ hupcast hnull
    have hpoint : pinRegistry.IsStruct (.named ⟨0⟩) := ⟨⟨0⟩, _, rfl, rfl, rfl⟩
    exact ⟨w, hw, Bool.eq_false_iff.2 fun accepted => hstruct.1 accepted ⟨rfl, hpoint⟩⟩
  · obtain ⟨w, hw, hwide⟩ := hcoerced (.builtin (.int .i8)) (.builtin (.int .i64)) _
      (IntType.i8.wrap (-128)) rfl rfl
    exact ⟨w, hw, hwide.2 (by simp [IntType.wrap])⟩
  · exact (hruntime _ (.named ⟨1⟩) _ rfl rfl).2 ⟨.upcast, hupcast, Or.inr (Or.inr rfl)⟩

end Registry

end Contracts
