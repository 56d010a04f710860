import Contracts.Proofs.BaseChain
import Contracts.Proofs.Coercibility

set_option autoImplicit false

/-! # The best overload

Of everything that an operation could be bound to, the resolver takes the first of the cheapest
(`FirstCheapest`), where the cost counts the values that do not go through as they are. For a method
that is the order in which a type has its methods: its own as they were declared, then those of each
base. So of two methods that look the same the more derived one is taken, and the other never
(`Registry.not_target_of_overridden`). Operators are looked for in one place after the other, and a
place is only gone on to if nothing before it can be bound, whatever that would cost
(`Registry.OperatorChoice`). `Registry.best_overload` has both. -/

namespace Contracts

/-! ## The first of the cheapest -/

/-- The binding of some element: what can be bound before it costs more, and what can be bound after
it costs no less. -/
def FirstCheapest {α : Type} (bind : α → Option Binding) (xs : List α) (b : Binding) : Prop :=
  ∃ before x after, xs = before ++ x :: after ∧ bind x = some b ∧
    (∀ y ∈ before, ∀ c, bind y = some c → b.cost < c.cost) ∧
    ∀ y ∈ after, ∀ c, bind y = some c → b.cost ≤ c.cost

section Cheapest

variable {α : Type} {bind : α → Option Binding} {x : α} {xs : List α} {b c : Binding}

theorem firstCheapest_cons_iff :
    FirstCheapest bind (x :: xs) b ↔
      (bind x = some b ∧ ∀ y ∈ xs, ∀ c, bind y = some c → b.cost ≤ c.cost) ∨
        FirstCheapest bind xs b ∧ ∀ c, bind x = some c → b.cost < c.cost := by
  constructor
  · rintro ⟨before, z, after, hsplit, hz, hbefore, hafter⟩
    cases before with
    | nil =>
        obtain ⟨rfl, rfl⟩ := List.cons.inj hsplit
        exact Or.inl ⟨hz, hafter⟩
    | cons first before =>
        obtain ⟨rfl, rfl⟩ := List.cons.inj hsplit
        obtain ⟨hfirst, hbefore⟩ := List.forall_mem_cons.1 hbefore
        exact Or.inr ⟨⟨before, z, after, rfl, hz, hbefore, hafter⟩, hfirst⟩
  · rintro (⟨hx, hafter⟩ | ⟨⟨before, z, after, rfl, hz, hbefore, hafter⟩, hx⟩)
    · exact ⟨[], x, xs, rfl, hx, by simp, hafter⟩
    · exact ⟨x :: before, z, after, rfl, hz, List.forall_mem_cons.2 ⟨hx, hbefore⟩, hafter⟩

theorem FirstCheapest.exists_mem (h : FirstCheapest bind xs b) : ∃ x ∈ xs, bind x = some b := by
  obtain ⟨before, x, after, rfl, hx, -⟩ := h
  exact ⟨x, by simp, hx⟩

theorem FirstCheapest.le (h : FirstCheapest bind xs b) (hx : x ∈ xs) (hc : bind x = some c) :
    b.cost ≤ c.cost := by
  obtain ⟨before, z, after, rfl, hz, hbefore, hafter⟩ := h
  rcases List.mem_append.1 hx with hx | hx
  · exact Nat.le_of_lt (hbefore x hx c hc)
  · rcases List.mem_cons.1 hx with rfl | hx
    · exact Nat.le_of_eq (congrArg Binding.cost (Option.some.inj (hz.symm.trans hc)))
    · exact hafter x hx c hc

theorem FirstCheapest.unique (h : FirstCheapest bind xs b) (h' : FirstCheapest bind xs c) :
    b = c := by
  induction xs with
  | nil =>
      obtain ⟨x, hx, -⟩ := h.exists_mem
      cases hx
  | cons x xs ih =>
      rcases firstCheapest_cons_iff.1 h with ⟨hb, hall⟩ | ⟨hrest, hlt⟩ <;>
        rcases firstCheapest_cons_iff.1 h' with ⟨hc, hall'⟩ | ⟨hrest', hlt'⟩
      · exact Option.some.inj (hb.symm.trans hc)
      · obtain ⟨y, hy, hc⟩ := hrest'.exists_mem
        exact absurd (hall y hy c hc) (Nat.not_le.2 (hlt' b hb))
      · obtain ⟨y, hy, hb⟩ := hrest.exists_mem
        exact absurd (hall' y hy b hb) (Nat.not_le.2 (hlt c hc))
      · exact ih hrest hrest'

theorem firstCheapest_of_minOn? (h : (xs.filterMap bind).minOn? Binding.cost = some b) :
    FirstCheapest bind xs b := by
  induction xs generalizing b with
  | nil => simp at h
  | cons x xs ih =>
      refine firstCheapest_cons_iff.2 ?_
      cases hx : bind x with
      | none =>
          rw [List.filterMap_cons_none hx] at h
          exact Or.inr ⟨ih h, by simp⟩
      | some c =>
          rw [List.filterMap_cons_some hx, List.minOn?_cons] at h
          obtain rfl := Option.some.inj h
          cases hrest : (xs.filterMap bind).minOn? Binding.cost with
          | none =>
              -- Nothing else can be bound.
              refine Or.inl ⟨rfl, fun y hy d hd => ?_⟩
              have hsome := Registry.isSome_minOn?_filterMap_iff.2 ⟨y, hy, Option.isSome_of_mem hd⟩
              simp [hrest] at hsome
          | some best =>
              have hbest := ih hrest
              rw [Option.elim_some, minOn]
              split
              · rename_i hle
                exact Or.inl ⟨rfl, fun y hy d hd => Nat.le_trans hle (hbest.le hy hd)⟩
              · rename_i hgt
                refine Or.inr ⟨hbest, fun d hd => ?_⟩
                obtain rfl := Option.some.inj hd
                exact Nat.not_le.1 hgt

/-- The least by cost of what can be bound is the first of the cheapest. -/
theorem minOn?_filterMap_eq_some_iff :
    (xs.filterMap bind).minOn? Binding.cost = some b ↔ FirstCheapest bind xs b := by
  refine ⟨firstCheapest_of_minOn?, fun h => ?_⟩
  obtain ⟨x, hx, hb⟩ := h.exists_mem
  obtain ⟨best, hbest⟩ := Option.isSome_iff_exists.1
    (Registry.isSome_minOn?_filterMap_iff.2 ⟨x, hx, Option.isSome_of_mem hb⟩)
  rw [hbest, (firstCheapest_of_minOn? hbest).unique h]

end Cheapest

/-! ## Methods that look the same -/

/-- Nothing that an operation asks for tells the two methods apart. -/
structure MethodDef.SameShape (m m' : MethodDef) : Prop where
  name : m.name = m'.name
  isStatic : m.isStatic = m'.isStatic
  params : m.params = m'.params
  ret : m.ret = m'.ret
  constraints : m.generics.map (·.constraints) = m'.generics.map (·.constraints)

namespace Unifier

variable {r : Registry} {required generics generics' : List GenericParam} {substitute : Bool}

/-- Of the candidate's generic parameters only the constraints count. -/
theorem params_of_constraints
    (same : generics.map (·.constraints) = generics'.map (·.constraints)) (depth : Nat) :
    Unifier.params ⟨r, required, generics', substitute⟩ depth =
      Unifier.params ⟨r, required, generics, substitute⟩ depth := by
  induction depth with
  | zero => rfl
  | succ depth ih =>
      funext i j
      have hconstraints : generics[j]?.map (·.constraints) = generics'[j]?.map (·.constraints) := by
        rw [← List.getElem?_map, same, List.getElem?_map]
      simp only [params, ih]
      cases hoffered : generics[j]? with
      | none =>
          have hnone : generics'[j]? = none := by simpa [hoffered] using hconstraints
          rw [hnone]
          rfl
      | some p =>
          obtain ⟨q, hq, hpq⟩ : ∃ q, generics'[j]? = some q ∧ q.constraints = p.constraints := by
            simpa [hoffered] using hconstraints.symm
          rw [hq]
          cases required[i]? with
          | none => rfl
          | some p' =>
              simp only [hpq]
              rfl

theorem signature_of_constraints
    (same : generics.map (·.constraints) = generics'.map (·.constraints))
    (a b : Signature) :
    Unifier.signature ⟨r, required, generics', substitute⟩ a b =
      Unifier.signature ⟨r, required, generics, substitute⟩ a b := by
  simp only [signature, paramPair, params_of_constraints same]
  rfl

end Unifier

namespace MethodDef.SameShape

variable {r : Registry} {op : Operation} {m m' : MethodDef}

/-- Methods of the same shape stand in for the same signatures. -/
theorem unifies_eq (same : m.SameShape m') (substitute : Bool) (required : Signature) :
    r.unifies substitute required m'.toSignature = r.unifies substitute required m.toSignature := by
  have hgenerics : m'.generics.length = m.generics.length := by
    simpa using (congrArg List.length same.constraints).symm
  have hsignature : (r.unifier substitute required m'.toSignature).signature required
      m'.toSignature =
        (r.unifier substitute required m.toSignature).signature required m.toSignature := by
    simp only [Registry.unifier, Unifier.signature_of_constraints same.constraints]
    simp only [Unifier.signature, same.params, same.ret]
  rw [Bool.eq_iff_iff, Registry.unifies_eq_true_iff, Registry.unifies_eq_true_iff, hgenerics,
    hsignature, same.params]

theorem answersTo (same : m.SameShape m') (isPublic : m'.isPublic = true) (h : m.AnswersTo op) :
    m'.AnswersTo op where
  isPublic := isPublic
  name := same.name ▸ h.name
  arity := (congrArg List.length same.params).symm.trans h.arity
  isStatic := same.isStatic ▸ h.isStatic

/-- Methods of the same shape are bound at the same cost. -/
theorem cost_eq (r : Registry) (op : Operation) {l l' : Located MethodDef}
    (same : l.decl.SameShape l'.decl) :
    (r.bindMethod? op l').map Binding.cost = (r.bindMethod? op l).map Binding.cost := by
  unfold Registry.bindMethod?
  rw [← same.params, ← same.ret]
  cases (op.params.zip l.decl.params).mapM fun p => r.coercion? p.1 p.2 with
  | none => rfl
  | some args => cases r.resultCoercion? l.decl.ret op.ret <;> rfl

end MethodDef.SameShape

/-! ## The more derived of two methods -/

namespace Registry

variable {r : Registry} {config : Config} {ty : ImplType} {op : Operation} {b : Binding}
  {idx owner derived : TypeIdx} {decl : TypeDef}

/-- The instance methods that a declared type hands on to the types derived from it. -/
def inherited (t : TypeIdx × TypeDef) : List (Located MethodDef) :=
  (locate (.named t.1) t.2.members.methods).filter (!·.decl.isStatic)

/-- The methods of a type that are declared on the part of its chain up to some point: its own, and
those that it inherits. -/
def methodsAlong (first : TypeIdx × TypeDef) (bases : List (TypeIdx × TypeDef)) :
    List (Located MethodDef) :=
  locate (.named first.1) first.2.members.methods ++ bases.flatMap inherited

theorem allMethods_of_chain {first : TypeIdx × TypeDef} {before after : List (TypeIdx × TypeDef)}
    (chain : r.baseChain idx = first :: before ++ after) :
    r.allMethods (.named idx) = methodsAlong first before ++ after.flatMap inherited := by
  simp only [allMethods, methodsAlong, memberSources, chain, List.cons_append, List.map_cons,
    List.map_append, List.flatMap_append, List.flatMap_map, List.append_assoc]
  rfl

theorem owner_of_mem_locate {α : Type} {owner : ImplType} {members : List α} {m : Located α}
    (h : m ∈ locate owner members) : m.owner = owner := by
  obtain ⟨i, hi, rfl⟩ := List.mem_mapIdx.1 h
  rfl

theorem exists_owner_of_mem_methodsAlong {first : TypeIdx × TypeDef}
    {bases : List (TypeIdx × TypeDef)} {m : Located MethodDef}
    (h : m ∈ methodsAlong first bases) : ∃ t ∈ first :: bases, m.owner = .named t.1 := by
  rcases List.mem_append.1 h with hown | hbases
  · exact ⟨first, List.mem_cons_self, owner_of_mem_locate hown⟩
  · obtain ⟨t, ht, hinherited⟩ := List.mem_flatMap.1 hbases
    exact ⟨t, List.mem_cons_of_mem _ ht, owner_of_mem_locate (List.mem_filter.1 hinherited).1⟩

theorem mem_methodsAlong {first t : TypeIdx × TypeDef} {bases : List (TypeIdx × TypeDef)}
    {m : Located MethodDef} (ht : t ∈ first :: bases)
    (hm : m ∈ locate (.named t.1) t.2.members.methods) (onInstance : m.decl.isStatic = false) :
    m ∈ methodsAlong first bases := by
  rcases List.mem_cons.1 ht with rfl | ht
  · exact List.mem_append_left _ hm
  · refine List.mem_append_right _ (List.mem_flatMap.2 ⟨t, ht, List.mem_filter.2 ⟨hm, ?_⟩⟩)
    rw [onInstance]
    rfl

/-- On the chain of a type the one type is arrived at before the other. In a cycle the chain comes
to some types again, and then it is the first time that counts. -/
def Precedes (r : Registry) (idx derived owner : TypeIdx) : Prop :=
  ∃ before decl after, r.baseChain idx = before ++ (owner, decl) :: after ∧
    owner ∉ before.map Prod.fst ∧ derived ∈ before.map Prod.fst

/-- A type nearer on the chain than the method's owner declares a public method of the same
shape. -/
def Overridden (r : Registry) (idx : TypeIdx) (m : Located MethodDef) : Prop :=
  ∃ owner derived decl m', m.owner = .named owner ∧ r.Precedes idx derived owner ∧
    r.type? derived = some decl ∧ m' ∈ decl.members.methods ∧ m'.isPublic = true ∧
      m.decl.SameShape m'

/-- A method of the same shape comes earlier among the methods of the type. -/
theorem exists_earlier_of_overridden {m : Located MethodDef} (overridden : r.Overridden idx m)
    (hm : m ∈ r.allMethods (.named idx)) :
    ∃ earlier later l, r.allMethods (.named idx) = earlier ++ later ∧ m ∉ earlier ∧
      l ∈ earlier ∧ l.decl.isPublic = true ∧ m.decl.SameShape l.decl := by
  obtain ⟨owner, _, decl, m', howner, ⟨before, d, after, chain, hnew, hderived⟩, hdecl, hm',
    isPublic, same⟩ := overridden
  obtain ⟨⟨derived, d'⟩, hmem, rfl⟩ := List.mem_map.1 hderived
  obtain rfl : d' = decl := by
    have hchain : (derived, d') ∈ r.baseChain idx := chain ▸ List.mem_append_left _ hmem
    exact Option.some.inj ((mem_baseChain_iff.1 hchain).1.symm.trans hdecl)
  obtain ⟨first, before, rfl⟩ := List.exists_cons_of_ne_nil (List.ne_nil_of_mem hmem)
  have hall := allMethods_of_chain chain
  have hother : m ∉ methodsAlong first before := by
    intro hearlier
    obtain ⟨t, ht, howner'⟩ := exists_owner_of_mem_methodsAlong hearlier
    have heq : owner = t.1 := ImplType.named.inj (howner.symm.trans howner')
    exact hnew (heq ▸ List.mem_map.2 ⟨t, ht, rfl⟩)
  -- So it is inherited, and static methods are not.
  have honInstance : m.decl.isStatic = false := by
    rw [hall] at hm
    obtain ⟨t, -, hinherited⟩ := List.mem_flatMap.1 ((List.mem_append.1 hm).resolve_left hother)
    simpa using (List.mem_filter.1 hinherited).2
  obtain ⟨l, hl, rfl⟩ := exists_mem_locate (.named derived) hm'
  refine ⟨_, _, l, hall, hother, ?_, isPublic, same⟩
  exact mem_methodsAlong hmem hl (same.isStatic.symm.trans honInstance)

/-- What stands before the end of a list that does not contain an element stands before it. -/
theorem subset_of_append_eq {α : Type} {xs ys before after : List α} {a : α}
    (h : xs ++ ys = before ++ a :: after) (ha : a ∉ xs) : xs ⊆ before := by
  rcases List.append_eq_append_iff.1 h with ⟨zs, rfl, -⟩ | ⟨zs, rfl, hzs⟩
  · exact List.subset_append_left _ _
  · cases zs with
    | nil => simp
    | cons z zs =>
        obtain ⟨rfl, -⟩ := List.cons.inj hzs
        simp at ha

/-- **The more derived method wins.** A method that is overridden is never what an operation is
bound to. -/
theorem not_target_of_overridden (asks : op.AsksMethod) {m : Located MethodDef}
    (bound : r.resolve config (.named idx) op = some b) (overridden : r.Overridden idx m) :
    b.target ≠ .method m := by
  intro htarget
  rw [resolve_of_asksMethod asks, minOn?_filterMap_eq_some_iff] at bound
  obtain ⟨before, m', after, hsplit, hb, hbefore, -⟩ := bound
  obtain rfl : m = m' := Target.method.inj (htarget.symm.trans (target_of_bindMethod? hb))
  have hm : m ∈ r.candidates config (.named idx) op := by simp [hsplit]
  obtain ⟨hall, answers, hunifies⟩ := mem_candidates_iff.1 hm
  obtain ⟨earlier, later, l, hmethods, hnot, hl, isPublic, same⟩ :=
    exists_earlier_of_overridden overridden hall
  -- The other method is a candidate too, and comes first.
  rw [candidates_eq, hmethods, List.filter_append] at hsplit
  have hl' : l ∈ before := by
    refine subset_of_append_eq hsplit (fun h => hnot (List.mem_filter.1 h).1) ?_
    refine List.mem_filter.2 ⟨hl, ?_⟩
    simp [same.answersTo isPublic answers, same.unifies_eq, hunifies]
  -- But it costs the same.
  have hcost := same.cost_eq r op
  rw [hb] at hcost
  obtain ⟨c, hc, hcb⟩ := Option.map_eq_some_iff.1 hcost
  exact absurd (hbefore l hl' c hc) (Nat.not_lt.2 (Nat.le_of_eq hcb))

/-! ## Operators -/

variable {symbol : BinaryOp} {side : Side} {this other : TypeRef}

variable (r) in
/-- Bind an operator operation to a declared operator. -/
def bindDeclared? (op : Operation) (side : Side) (this other : TypeRef)
    (o : Located OperatorDef) : Option Binding :=
  r.bindOperator? op side this other (.operator o) o.decl.left o.decl.right o.decl.ret

/-- What an operator operation on a type and another operand is bound to. -/
inductive OperatorChoice (r : Registry) (config : Config) (ty : ImplType) (op : Operation)
    (symbol : BinaryOp) (side : Side) (other : TypeRef) (b : Binding) : Prop
  /-- The best of the type's own operators. -/
  | own
      (best : FirstCheapest (r.bindDeclared? op side ty.toRef other)
        (r.operators ty (some symbol)) b)
  /-- The best of the other operand's, if none of the type's own can be bound. -/
  | operand {idx : TypeIdx} (declared : other = .named idx) (search : config.searchOperands = true)
      (another : .named idx ≠ ty) (free : ¬r.Supplies ty op symbol side ty.toRef other)
      (best : FirstCheapest (r.bindDeclared? op side ty.toRef other)
        (r.operators (.named idx) (some symbol)) b)
  /-- The primitive one, if no declared operator can be bound. -/
  | primitive (allowed : config.usePrimitives = true)
      (free : ∀ owner ∈ operatorOwners config ty other,
        ¬r.Supplies owner op symbol side ty.toRef other)
      (found : r.primitiveOperator? op symbol side ty.toRef other = some b)

theorem resolveDeclared_eq_some_iff :
    r.resolveDeclared op symbol side this other ty = some b ↔
      FirstCheapest (r.bindDeclared? op side this other) (r.operators ty (some symbol)) b :=
  minOn?_filterMap_eq_some_iff

/-- The type itself is asked first, and after it at most the other operand's type. -/
theorem findSome?_operatorOwners_eq_some_iff {f : ImplType → Option Binding} :
    (operatorOwners config ty other).findSome? f = some b ↔
      f ty = some b ∨ f ty = none ∧ ∃ idx, other = .named idx ∧ config.searchOperands = true ∧
        .named idx ≠ ty ∧ f (.named idx) = some b := by
  cases other with
  | named idx =>
      by_cases hsearch : config.searchOperands = true ∧ ImplType.named idx ≠ ty
      · have howners : operatorOwners config ty (.named idx) = [ty, .named idx] := if_pos hsearch
        rw [howners]
        cases hown : f ty <;> simp [hown, hsearch]
      · have howners : operatorOwners config ty (.named idx) = [ty] := if_neg hsearch
        rw [howners, or_iff_left]
        · simp
        · rintro ⟨-, i, hi, search, another, -⟩
          obtain rfl := TypeRef.named.inj hi
          exact hsearch ⟨search, another⟩
  | builtin _ | param _ => simp [operatorOwners]

/-- **One place after the other.** An operator operation is bound to the best operator of the first
place that has one. -/
theorem resolve_eq_some_iff_operatorChoice (asks : op.kind = .operator symbol side)
    (params : op.params.head? = some other) :
    r.resolve config ty op = some b ↔ r.OperatorChoice config ty op symbol side other b := by
  simp only [resolve, asks, resolveOperator_eq, params, Option.bind_some, Option.or_eq_some_iff,
    findSome?_operatorOwners_eq_some_iff, findSome?_resolveDeclared_eq_none_iff,
    resolveDeclared_eq_some_iff, resolveDeclared_eq_none_iff, Option.ite_none_right_eq_some]
  constructor
  · rintro ((best | ⟨free, idx, declared, search, another, best⟩) | ⟨free, allowed, found⟩)
    · exact .own best
    · exact .operand declared search another free best
    · exact .primitive allowed free found
  · intro choice
    cases choice with
    | own best => exact Or.inl (Or.inl best)
    | operand declared search another free best =>
        exact Or.inl (Or.inr ⟨free, _, declared, search, another, best⟩)
    | primitive allowed free found => exact Or.inr ⟨free, allowed, found⟩

/-! ## Methods and operators -/

/-- **The best overload wins.** A method operation is bound to the first of the cheapest of the
methods that unify with it, all of which can be bound, and is left unbound only if there is none; it
is never bound to a method that is overridden. An operator operation is bound to the best operator
of the type itself, else of the other operand's type, else to the primitive one. -/
theorem best_overload (r : Registry) (config : Config) (op : Operation) :
    (op.AsksMethod → ∀ ty,
      (∀ m ∈ r.candidates config ty op, (r.bindMethod? op m).isSome = true) ∧
      (∀ b, r.resolve config ty op = some b ↔
        FirstCheapest (r.bindMethod? op) (r.candidates config ty op) b) ∧
      (r.resolve config ty op = none ↔ r.candidates config ty op = [])) ∧
    (op.AsksMethod → ∀ idx b m, r.resolve config (.named idx) op = some b →
      r.Overridden idx m → b.target ≠ .method m) ∧
    ∀ ty symbol side other, op.kind = .operator symbol side → op.params.head? = some other →
      ∀ b, r.resolve config ty op = some b ↔ r.OperatorChoice config ty op symbol side other b := by
  refine ⟨fun asks ty => ⟨fun m hm => ?_, fun b => ?_, ?_⟩, fun asks idx b m bound overridden => ?_,
    fun ty symbol side other hkind hparams b => ?_⟩
  · exact isSome_bindMethod?_of_unifies (mem_candidates_iff.1 hm).2.2
  · rw [resolve_of_asksMethod asks, minOn?_filterMap_eq_some_iff]
  · rw [← Option.not_isSome_iff_eq_none, isSome_resolve_iff_candidate asks,
      List.eq_nil_iff_forall_not_mem, not_exists]
  · exact not_target_of_overridden asks bound overridden
  · exact resolve_eq_some_iff_operatorChoice hkind hparams

/-! ### An override, and an operator that costs more -/

/-- A size, as an integer. -/
def sizeOperation : Operation where
  name := "size"
  kind := .method
  params := []
  ret := .builtin (.int .i32)

/-- Whether the instance equals a box. -/
def equalsBoxOperation : Operation where
  name := "equals_box"
  kind := .operator .eq .left
  params := [.named ⟨1⟩]
  ret := .bool

/-- The size that boxes and crates have. -/
def sizeMethod : MethodDef where
  name := "size"
  params := []
  ret := .builtin (.int .i32)
  body := fun _ _ => pure (IntType.i32.wrap 1)

/-- Whether a crate equals anything. -/
def crateEquality : OperatorDef where
  op := .eq
  left := .named ⟨2⟩
  right := .object
  ret := .bool
  body := fun _ _ => pure (.bool false)

/-- Whether a crate equals a box. -/
def boxEquality : OperatorDef where
  op := .eq
  left := .named ⟨2⟩
  right := .named ⟨1⟩
  ret := .bool
  body := fun _ _ => pure (.bool true)

/-- A contract, boxes, and crates derived from them. Both have a size; crates are compared with
anything, and boxes with crates. -/
def crateRegistry : Registry where
  types := #[
    ⟨"Container", true, .contract { operations := [sizeOperation, equalsBoxOperation] }⟩,
    ⟨"Box", true, .implementation false
      { members := { methods := [sizeMethod], operators := [boxEquality] } }⟩,
    ⟨"Crate", true, .implementation false
      { base := some ⟨1⟩, members := { methods := [sizeMethod], operators := [crateEquality] } }⟩]

theorem best_overload_crate :
    crateRegistry.Overridden ⟨2⟩ ⟨.named ⟨1⟩, 0, sizeMethod⟩ ∧
      (∃ b, crateRegistry.resolve {} (.named ⟨2⟩) sizeOperation = some b ∧
        b.target = .method ⟨.named ⟨2⟩, 0, sizeMethod⟩ ∧
        b.target ≠ .method ⟨.named ⟨1⟩, 0, sizeMethod⟩) ∧
      ∃ b, crateRegistry.resolve {} (.named ⟨2⟩) equalsBoxOperation = some b ∧
        b.target = .operator ⟨.named ⟨2⟩, 0, crateEquality⟩ ∧ b.cost = 1 := by
  have hoverridden : crateRegistry.Overridden ⟨2⟩ ⟨.named ⟨1⟩, 0, sizeMethod⟩ := by
    refine ⟨⟨1⟩, ⟨2⟩, _, sizeMethod, rfl, ⟨[_], _, [], rfl, ?_, ?_⟩, rfl,
      List.mem_singleton.2 rfl, rfl, ⟨rfl, rfl, rfl, rfl, rfl⟩⟩
    · simp
    · simp
  obtain ⟨hmethod, hnever, -⟩ := best_overload crateRegistry {} sizeOperation
  obtain ⟨-, hbest, -⟩ := hmethod (Or.inl rfl) (.named ⟨2⟩)
  obtain ⟨-, -, hoperator⟩ := best_overload crateRegistry {} equalsBoxOperation
  have hsize := (hbest
      { operation := sizeOperation, target := .method ⟨.named ⟨2⟩, 0, sizeMethod⟩ }).2
    ⟨[], ⟨.named ⟨2⟩, 0, sizeMethod⟩, [⟨.named ⟨1⟩, 0, sizeMethod⟩], rfl, rfl, by simp,
      fun _ _ _ _ => Nat.zero_le _⟩
  have hequals := (hoperator (.named ⟨2⟩) .eq .left (.named ⟨1⟩) rfl rfl
      { operation := equalsBoxOperation, target := .operator ⟨.named ⟨2⟩, 0, crateEquality⟩,
        args := [.upcast] }).2
    (.own ⟨[], ⟨.named ⟨2⟩, 0, crateEquality⟩, [], rfl, rfl, by simp, by simp⟩)
  exact ⟨hoverridden, ⟨_, hsize, rfl, hnever (Or.inl rfl) ⟨2⟩ _ _ hsize hoverridden⟩,
    ⟨_, hequals, rfl, by decide⟩⟩

end Registry

end Contracts
