import Contracts.Proofs.Preorder
import Contracts.Proofs.PrimitiveTotality
import Contracts.Proofs.Solution

set_option autoImplicit false

/-! # What is let through can be coerced

An operation is bound in two stages. First it is decided what may be bound at all, by unification of
signatures for methods and by the table for primitive operators; then each value gets the coercion
that it needs on its way. The second stage could refuse what the first one has let through, and so
leave an operation without a binding that should have one. It never does, since there is a coercion
wherever a type is assignable or generic parameters meet (`Registry.isSome_coercion?_iff`), and both
first stages ask for nothing less. So a method operation is bound exactly if a method unifies, and
where no declared operator fits, an operator exactly if the table has one
(`Registry.stages_agree`). -/

namespace Contracts

/-- Whatever each element gives is there exactly if none gives nothing. -/
theorem Option.isSome_mapM_iff {α β : Type} {f : α → Option β} {xs : List α} :
    (xs.mapM f).isSome = true ↔ ∀ x ∈ xs, (f x).isSome = true := by
  induction xs with
  | nil => simp
  | cons x xs ih =>
      rw [List.mapM_cons, List.forall_mem_cons, ← ih]
      cases f x with
      | none => simp
      | some y => cases xs.mapM f <;> simp

namespace Registry

variable {r : Registry} {config : Config} {ty : ImplType} {op : Operation}

/-! ## Coercions -/

/-- There is a coercion along assignability and between generic parameters, and no other. -/
theorem isSome_coercion?_iff {source target : TypeRef} :
    (r.coercion? source target).isSome = true ↔
      r.isAssignable source target = true ∨ source.isParam = true ∧ target.isParam = true := by
  constructor
  · intro h
    obtain ⟨c, hc⟩ := Option.isSome_iff_exists.1 h
    rcases coercion?_cases hc with ⟨a, b, rfl, rfl, wider, -⟩ | ⟨-, ⟨i, j, rfl, rfl⟩ | ⟨hassign, -⟩⟩
    · exact Or.inl (isAssignable_iff.2 (.widened wider))
    · exact Or.inr ⟨rfl, rfl⟩
    · exact Or.inl hassign
  · rintro (hassign | ⟨hsource, htarget⟩)
    · exact Option.isSome_iff_exists.2 (exists_coercion?_of_isAssignable hassign)
    · cases source <;> cases target <;> simp_all [TypeRef.isParam, coercion?]

/-- Parameters that fit can be coerced, from the required one to the candidate's. -/
theorem isSome_coercion?_of_fitsAt {u : Unifier} {pairs : Pairing} {required candidate : TypeRef}
    (h : u.FitsAt pairs required candidate) :
    (u.registry.coercion? required candidate).isSome = true := by
  refine isSome_coercion?_iff.2 ?_
  cases h with
  | param => exact Or.inr ⟨rfl, rfl⟩
  | concrete _ _ meets =>
      rcases meets with rfl | ⟨-, hassign⟩
      · exact Or.inl (u.registry.isAssignable_self required)
      · exact Or.inl hassign

/-- Results that fit can be coerced, from the candidate's to the required one. -/
theorem isSome_resultCoercion?_of_fitsResult {u : Unifier} {pairs : Pairing}
    {required candidate : TypeRef} (h : u.FitsResult pairs required candidate) :
    (u.registry.resultCoercion? candidate required).isSome = true := by
  cases h with
  | void => rw [resultCoercion?_self]; rfl
  | param => simp [resultCoercion?, TypeRef.isVoid, coercion?]
  | concrete _ _ hrequired hcandidate assignable =>
      have hsome : ¬(candidate.isVoid = true ∨ required.isVoid = true) := by
        simp [TypeRef.isVoid, hrequired, hcandidate]
      rw [resultCoercion?, if_neg hsome]
      exact isSome_coercion?_iff.2 (Or.inl assignable)

/-! ## Methods -/

theorem isSome_bindMethod?_iff {m : Located MethodDef} :
    (r.bindMethod? op m).isSome = true ↔
      (∀ p ∈ op.params.zip m.decl.params, (r.coercion? p.1 p.2).isSome = true) ∧
        (r.resultCoercion? m.decl.ret op.ret).isSome = true := by
  rw [← Option.isSome_mapM_iff, bindMethod?]
  cases (op.params.zip m.decl.params).mapM fun p => r.coercion? p.1 p.2 with
  | none => simp
  | some args => cases r.resultCoercion? m.decl.ret op.ret <;> simp

/-- A method that unifies can be bound. -/
theorem isSome_bindMethod?_of_unifies {substitute : Bool} {m : Located MethodDef}
    (h : r.unifies substitute op.toSignature m.decl.toSignature = true) :
    (r.bindMethod? op m).isSome = true := by
  obtain ⟨length, -, hfits⟩ := unifies_eq_true_iff.1 h
  obtain ⟨hparams, hret⟩ := Unifier.fits_of_signature length (Prod.ext hfits rfl)
  refine isSome_bindMethod?_iff.2 ⟨fun p hp => ?_, isSome_resultCoercion?_of_fitsResult hret⟩
  exact isSome_coercion?_of_fitsAt ((List.forall₂_iff_zip.1 hparams).2 hp)

end Registry

/-! ## Candidates -/

/-- The method has what is asked for before types are compared: it is public, and has the name, the
number of parameters and the kind of receiver of the operation. -/
structure MethodDef.AnswersTo (m : MethodDef) (op : Operation) : Prop where
  isPublic : m.isPublic = true
  name : m.name = op.name
  arity : m.arity = op.arity
  isStatic : m.isStatic = op.isStatic

instance (m : MethodDef) (op : Operation) : Decidable (m.AnswersTo op) :=
  decidable_of_iff (m.isPublic = true ∧ m.name = op.name ∧ m.arity = op.arity ∧
      m.isStatic = op.isStatic)
    ⟨fun h => ⟨h.1, h.2.1, h.2.2.1, h.2.2.2⟩,
      fun h => ⟨h.isPublic, h.name, h.arity, h.isStatic⟩⟩

/-- The operation is to be bound to a method. -/
def Operation.AsksMethod (op : Operation) : Prop := op.kind = .method ∨ op.kind = .staticMethod

/-- The filter that lets through the methods of the operation's kind of receiver. -/
def Operation.methodFilter (op : Operation) : MethodFilter :=
  if op.isStatic then .onType else .onInstance

namespace Registry

variable {r : Registry} {config : Config} {ty : ImplType} {op : Operation}

variable (r) in
/-- The methods of a type among which the binding of an operation is chosen, in the order in which
the type has them. -/
def candidates (config : Config) (ty : ImplType) (op : Operation) : List (Located MethodDef) :=
  r.unifyingMethods ty op.name op.toSignature op.methodFilter config.substituteParams

/-- The candidates are the methods that answer to the operation and unify with it. -/
theorem candidates_eq (r : Registry) (config : Config) (ty : ImplType) (op : Operation) :
    r.candidates config ty op = (r.allMethods ty).filter fun m =>
      decide (m.decl.AnswersTo op) &&
        r.unifies config.substituteParams op.toSignature m.decl.toSignature := by
  rw [candidates, unifyingMethods, methods, List.filter_filter]
  refine List.filter_congr fun m _ => ?_
  have hfilter : op.methodFilter.admits m.decl = true ↔ m.decl.isStatic = op.isStatic := by
    unfold Operation.methodFilter
    cases op.isStatic <;> simp [MethodFilter.admits_onType, MethodFilter.admits_onInstance]
  rw [Bool.and_comm]
  refine congrArg (· && _) (Bool.eq_iff_iff.2 ?_)
  simp only [Bool.and_eq_true, hfilter, Option.all_some, beq_iff_eq, decide_eq_true_eq]
  constructor
  · rintro ⟨⟨⟨isPublic, isStatic⟩, name⟩, arity⟩
    exact ⟨isPublic, name.symm, arity.symm, isStatic⟩
  · rintro ⟨isPublic, name, arity, isStatic⟩
    exact ⟨⟨⟨isPublic, isStatic⟩, name.symm⟩, arity.symm⟩

theorem mem_candidates_iff {m : Located MethodDef} :
    m ∈ r.candidates config ty op ↔ m ∈ r.allMethods ty ∧ m.decl.AnswersTo op ∧
      r.unifies config.substituteParams op.toSignature m.decl.toSignature = true := by
  rw [candidates_eq, List.mem_filter, Bool.and_eq_true, decide_eq_true_eq]

/-- A method operation is bound to the first of the candidates that cost the least. -/
theorem resolve_of_asksMethod (asks : op.AsksMethod) :
    r.resolve config ty op =
      ((r.candidates config ty op).filterMap (r.bindMethod? op)).minOn? Binding.cost := by
  rcases asks with hkind | hkind <;>
    simp [resolve, hkind, resolveMethod, candidates, Operation.methodFilter, Operation.isStatic]

/-- A method operation is bound exactly if there is a candidate. -/
theorem isSome_resolve_iff_candidate (asks : op.AsksMethod) :
    (r.resolve config ty op).isSome = true ↔ ∃ m, m ∈ r.candidates config ty op := by
  rw [resolve_of_asksMethod asks, isSome_minOn?_filterMap_iff]
  refine exists_congr fun m => and_iff_left_of_imp fun hm => ?_
  exact isSome_bindMethod?_of_unifies (mem_candidates_iff.1 hm).2.2

end Registry

/-! ## Primitive operators -/

/-- Every operator of the table gives something. -/
theorem Primitive.Listed.result_ne_void {p : Primitive} (h : p.Listed) : p.result ≠ .void := by
  cases h with
  | explicit hsource htarget => rintro rfl; exact absurd htarget Bool.false_ne_true
  | implicit wider => exact (Builtin.ne_void_of_widensTo wider).2
  | numeric hmeet => exact BinaryOp.naturalResult_ne_void hmeet
  | truth | textEquality | append | prepend => simp [result]

namespace Registry

variable {r : Registry} {config : Config} {ty : ImplType} {op : Operation} {symbol : BinaryOp}
  {side : Side} {this other : TypeRef}

/-- An entry that is found is an operator that takes both operands and gives the result. -/
theorem exists_of_findOperator? {left right ret : TypeRef} {p : Primitive}
    (h : Primitive.findOperator? r symbol left right ret = some p) :
    ∃ l m n, p = .operator symbol l m n ∧ p ∈ Primitive.all ∧
      r.isAssignable left (.builtin l) = true ∧ r.isAssignable right (.builtin m) = true ∧
        r.isAssignable (.builtin n) ret = true := by
  have hmem := List.mem_of_find?_eq_some h
  have hfits := List.find?_some h
  cases p with
  | conversion kind source target => exact absurd hfits Bool.false_ne_true
  | operator o l m n =>
      simp only [Bool.and_eq_true, decide_eq_true_eq] at hfits
      obtain ⟨⟨⟨rfl, hleft⟩, hright⟩, hret⟩ := hfits
      exact ⟨l, m, n, rfl, hmem, hleft, hright, hret⟩

variable (r) in
/-- The owner declares an operator that can be bound to the operation. -/
def Supplies (owner : ImplType) (op : Operation) (symbol : BinaryOp) (side : Side)
    (this other : TypeRef) : Prop :=
  r.HasOperator owner symbol (side.arrange this other).1 (side.arrange this other).2 op.ret

theorem resolveDeclared_eq_none_iff :
    r.resolveDeclared op symbol side this other ty = none ↔
      ¬r.Supplies ty op symbol side this other := by
  rw [← Option.not_isSome_iff_eq_none, isSome_resolveDeclared_iff, Supplies]

theorem findSome?_resolveDeclared_eq_none_iff {owners : List ImplType} :
    owners.findSome? (r.resolveDeclared op symbol side this other) = none ↔
      ∀ owner ∈ owners, ¬r.Supplies owner op symbol side this other := by
  simp only [List.findSome?_eq_none_iff, resolveDeclared_eq_none_iff]

variable (r) in
/-- The first entry of the table that fits the operation. -/
def entryFor? (op : Operation) (symbol : BinaryOp) (side : Side) (this other : TypeRef) :
    Option Primitive :=
  Primitive.findOperator? r symbol (side.arrange this other).1 (side.arrange this other).2 op.ret

/-- The entry that is found is bound. -/
theorem target_primitiveOperator? :
    (r.primitiveOperator? op symbol side this other).map (·.target) =
      (r.entryFor? op symbol side this other).map .primitive := by
  cases hfind : r.entryFor? op symbol side this other with
  | none =>
      have hprimitive : r.primitiveOperator? op symbol side this other = none :=
        Option.bind_eq_none_iff.2 fun p hp => absurd (hfind.symm.trans hp) (by simp)
      rw [hprimitive, Option.map_none, Option.map_none]
  | some p =>
      obtain ⟨l, m, n, rfl, hmem, hleft, hright, hret⟩ := exists_of_findOperator? hfind
      have hsomething : n ≠ .void := (Primitive.listed_of_mem_all hmem).result_ne_void
      have hbound : (r.bindOperator? op side this other (.primitive (.operator symbol l m n))
          (.builtin l) (.builtin m) (.builtin n)).isSome = true := by
        refine isSome_bindOperator?_iff.2 ⟨?_, ?_, ?_⟩
        · exact isSome_coercion?_iff.2 (Or.inl hleft)
        · exact isSome_coercion?_iff.2 (Or.inl hright)
        · rw [resultCoercion?_of_isAssignable hsomething hret]
          exact isSome_coercion?_iff.2 (Or.inl hret)
      obtain ⟨b, hb⟩ := Option.isSome_iff_exists.1 hbound
      have htarget : b.target = .primitive (.operator symbol l m n) := by
        obtain ⟨receiver, arg, ret, rfl, -⟩ := exists_of_bindOperator? hb
        rfl
      have hprimitive : r.primitiveOperator? op symbol side this other = some b :=
        Option.bind_eq_some_iff.2 ⟨_, hfind, hb⟩
      rw [hprimitive, Option.map_some, Option.map_some, htarget]

/-- Where no declared operator fits, an operator is bound to the entry that is found. -/
theorem target_resolve_of_undeclared (asks : op.kind = .operator symbol side)
    (params : op.params = [other]) (primitives : config.usePrimitives = true)
    (undeclared : ∀ owner ∈ operatorOwners config ty other,
      ¬r.Supplies owner op symbol side ty.toRef other) :
    (r.resolve config ty op).map (·.target) =
      (r.entryFor? op symbol side ty.toRef other).map .primitive := by
  have hdeclared : (operatorOwners config ty other).findSome?
      (r.resolveDeclared op symbol side ty.toRef other) = none :=
    findSome?_resolveDeclared_eq_none_iff.2 undeclared
  simp only [resolve, asks, resolveOperator_eq, params, List.head?_cons, Option.bind_some,
    hdeclared, Option.none_or, if_pos primitives, target_primitiveOperator?]

/-! ## Both stages -/

/-- **The stages of matching agree.** There is a coercion exactly along assignability and between
generic parameters. So of every operation that extraction lets through: a method operation is bound
exactly if a public method of its name, arity and kind of receiver unifies, and every method that
unifies can be bound; and an operator that neither operand's type supplies is bound exactly if the
table has an entry that fits, and then to that entry. -/
theorem stages_agree (r : Registry) :
    (∀ source target, (r.coercion? source target).isSome = true ↔
      r.isAssignable source target = true ∨ source.isParam = true ∧ target.isParam = true) ∧
    ∀ contract spec, r.extract contract = .ok spec → ∀ op ∈ spec.operations, ∀ config ty,
      (op.AsksMethod →
        ((r.resolve config ty op).isSome = true ↔
          ∃ m ∈ r.allMethods ty, m.decl.AnswersTo op ∧
            r.unifies config.substituteParams op.toSignature m.decl.toSignature = true) ∧
        ∀ m ∈ r.allMethods ty,
          r.unifies config.substituteParams op.toSignature m.decl.toSignature = true →
            (r.bindMethod? op m).isSome = true) ∧
      ∀ symbol side, op.kind = .operator symbol side → ∃ other, op.params = [other] ∧
        (config.usePrimitives = true →
          (∀ owner ∈ operatorOwners config ty other,
            ¬r.Supplies owner op symbol side ty.toRef other) →
          (r.resolve config ty op).map (·.target) =
            (r.entryFor? op symbol side ty.toRef other).map .primitive) := by
  refine ⟨fun source target => isSome_coercion?_iff, ?_⟩
  intro contract spec extracted op hop config ty
  refine ⟨fun asks => ⟨?_, fun m _ hunifies => isSome_bindMethod?_of_unifies hunifies⟩, ?_⟩
  · rw [isSome_resolve_iff_candidate asks]
    simp only [mem_candidates_iff]
  · intro symbol side hkind
    obtain ⟨other, hparams⟩ := op.params_of_operator (fault?_of_extract extracted op hop) hkind
    exact ⟨other, hparams, target_resolve_of_undeclared hkind hparams⟩

/-! ### A method that takes and gives something else -/

/-- A label for a number of copies, as whatever it may be. -/
def labelOperation : Operation where
  name := "label"
  kind := .method
  params := [.builtin (.int .i32)]
  ret := .object

/-- A text followed by the instance. -/
def captionOperation : Operation where
  name := "caption"
  kind := .operator .add .right
  params := [.str]
  ret := .object

/-- A label for anything, as a text. -/
def labelMethod : MethodDef where
  name := "label"
  params := [.object]
  ret := .str
  body := fun _ _ => pure (.str "parcel")

/-- A contract that asks for both, and a class with the method and no operator. -/
def parcelRegistry : Registry where
  types := #[
    ⟨"Labelled", true, .contract { operations := [labelOperation, captionOperation] }⟩,
    ⟨"Parcel", true, .implementation false { members := { methods := [labelMethod] } }⟩]

theorem stages_agree_parcel :
    parcelRegistry.extract ⟨0⟩ = .ok ⟨⟨0⟩, "Labelled", [labelOperation, captionOperation]⟩ ∧
      (parcelRegistry.resolve { substituteParams := true } (.named ⟨1⟩) labelOperation).isSome =
        true ∧
      (parcelRegistry.resolve {} (.named ⟨1⟩) captionOperation).map (·.target) =
        some (.primitive (.operator .add .str .object .str)) := by
  have hextract : parcelRegistry.extract ⟨0⟩ =
      .ok ⟨⟨0⟩, "Labelled", [labelOperation, captionOperation]⟩ := by
    rw [extract, ancestry_of_parents_eq_nil rfl]
    rfl
  obtain ⟨-, hagree⟩ := stages_agree parcelRegistry
  refine ⟨hextract, ?_, ?_⟩
  · obtain ⟨hmethod, -⟩ := hagree _ _ hextract labelOperation List.mem_cons_self
      { substituteParams := true } (.named ⟨1⟩)
    refine (hmethod (Or.inl rfl)).1.2 ⟨⟨.named ⟨1⟩, 0, labelMethod⟩, ?_, ⟨rfl, rfl, rfl, rfl⟩, ?_⟩
    · exact List.mem_singleton.2 rfl
    · decide +kernel
  · obtain ⟨-, hoperator⟩ := hagree _ _ hextract captionOperation (by simp) {} (.named ⟨1⟩)
    obtain ⟨other, hparams, hentry⟩ := hoperator .add .right rfl
    obtain rfl : .str = other := (List.cons.inj hparams).1
    have hnone : ∀ owner ∈ operatorOwners {} (.named ⟨1⟩) .str,
        ¬parcelRegistry.Supplies owner captionOperation .add .right (.named ⟨1⟩) .str := by
      intro owner howner
      obtain rfl := List.mem_singleton.1 howner
      rintro ⟨o, ho, -⟩
      exact absurd ho List.not_mem_nil
    have hfound : parcelRegistry.entryFor? captionOperation .add .right (.named ⟨1⟩) .str =
        some (.operator .add .str .object .str) := by
      decide +kernel
    rw [hentry rfl hnone, ImplType.toRef, hfound, Option.map_some]

end Registry

end Contracts
