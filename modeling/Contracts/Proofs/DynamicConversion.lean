import Contracts.Proofs.PrimitiveTotality
import Contracts.Proofs.Settling
import Contracts.Proofs.StandardContracts

set_option autoImplicit false

/-! # The order of dynamic conversion

A value is converted to a type by being seen through two contracts, each of which may be bound to a
declared conversion, to a primitive one or to the value itself. `World.converts_of_fresh` says what
comes of that: explicit conversions that the type of the value declares come first, then primitive
ones, then the value itself if it is of the type already, and implicit conversions that its type
declares come last (`Registry.conversion?`). -/

namespace Contracts

/-! ## The order -/

namespace Registry

/-- The first conversion of a kind to a type that a type itself declares. -/
def declaredConversion? (r : Registry) (kind : ConversionKind) (ty : ImplType)
    (target : TypeRef) : Option ConversionDef :=
  ((r.members? ty).getD {}).conversions.find? fun c =>
    c.kind = kind ∧ c.source = ty.toRef ∧ c.target = target

end Registry

/-- The type that a number is cast to, if it is one of another numeric type. -/
def Config.castTarget? (config : Config) (ty : ImplType) (target : TypeRef) : Option Builtin :=
  match ty, target with
  | .builtin s, .builtin t =>
      if config.usePrimitives ∧ s.isNumeric ∧ t.isNumeric ∧ s ≠ t then some t else none
  | _, _ => none

namespace Registry

/-- What converting a value of a type to another is, if there is a way. -/
def conversion? (r : Registry) (config : Config) (v : Value) (ty : ImplType) (target : TypeRef) :
    Option (Eval Value) :=
  match r.declaredConversion? .explicit ty target, config.castTarget? ty target with
  | some c, _ => some (c.body (some v) [])
  | none, some t => (v.castNumeric? t).map pure
  | none, none =>
      if target = ty.toRef then some (pure v)
      else (r.declaredConversion? .implicit ty target).map fun c => c.body (some v) []

end Registry

/-! ## Primitive conversions -/

namespace Primitive

variable {kind : ConversionKind} {s t : Builtin}

theorem conversion_mem_all_iff :
    .conversion kind s t ∈ all ↔ .conversion kind s t ∈ conversions := by
  have hnumeric : .conversion kind s t ∉ numericOperators := fun h => by
    rw [numericOperators_eq] at h
    obtain ⟨op, -, h⟩ := List.mem_flatMap.1 h
    obtain ⟨left, -, h⟩ := List.mem_flatMap.1 h
    obtain ⟨right, result, h⟩ := exists_of_mem_row h
    cases h
  simp [all, hnumeric, boolOperators, textOperators]

theorem explicit_mem_all_iff : .conversion .explicit s t ∈ all ↔
    s.isNumeric = true ∧ t.isNumeric = true ∧ s ≠ t := by
  rw [conversion_mem_all_iff]
  simp [conversions, Builtin.mem_numeric_iff]

theorem implicit_mem_all_iff : .conversion .implicit s t ∈ all ↔
    s.isNumeric = true ∧ t.isNumeric = true ∧ s.widensTo t = true := by
  rw [conversion_mem_all_iff]
  simp [conversions, Builtin.mem_numeric_iff]

/-- Conversions are found by exactly their types. -/
theorem exists_of_findConversion? {source target : TypeRef} {p : Primitive}
    (h : findConversion? kind source target = some p) :
    ∃ s t, source = .builtin s ∧ target = .builtin t ∧ p = .conversion kind s t ∧ p ∈ all := by
  have hfound := List.find?_some h
  cases p with
  | operator => simp at hfound
  | conversion k s t =>
      simp only [decide_eq_true_eq] at hfound
      obtain ⟨rfl, rfl, rfl⟩ := hfound
      exact ⟨s, t, rfl, rfl, rfl, List.mem_of_find?_eq_some h⟩

theorem findConversion?_of_mem (h : .conversion kind s t ∈ all) :
    findConversion? kind (.builtin s) (.builtin t) = some (.conversion kind s t) := by
  have hsome : (findConversion? kind (.builtin s) (.builtin t)).isSome = true :=
    List.find?_isSome.2 ⟨_, h, by simp⟩
  obtain ⟨p, hp⟩ := Option.isSome_iff_exists.1 hsome
  obtain ⟨s', t', hs, ht, rfl, -⟩ := exists_of_findConversion? hp
  obtain rfl := TypeRef.builtin.inj hs
  obtain rfl := TypeRef.builtin.inj ht
  exact hp

end Primitive

theorem Value.builtin?_of_runtimeType? {v : Value} {b : Builtin}
    (h : v.runtimeType? = some (.builtin b)) : v.builtin? = some b := by
  cases v <;> simp_all [builtin?, runtimeType?]

namespace Config

variable {config : Config} {ty : ImplType} {target : TypeRef} {t : Builtin}

/-- The primitive conversion of a kind that a configuration lets a type use. -/
def primitiveConversion? (config : Config) (kind : ConversionKind) (ty : ImplType)
    (target : TypeRef) : Option Primitive :=
  if config.usePrimitives then Primitive.findConversion? kind ty.toRef target else none

theorem castTarget?_eq_some_iff : config.castTarget? ty target = some t ↔
    config.usePrimitives = true ∧ ∃ s, ty = .builtin s ∧ target = .builtin t ∧
      s.isNumeric = true ∧ t.isNumeric = true ∧ s ≠ t := by
  unfold castTarget?
  split
  · rename_i s t'
    rw [Option.ite_none_right_eq_some, Option.some.injEq]
    constructor
    · rintro ⟨⟨hprimitives, hs, ht, hne⟩, rfl⟩
      exact ⟨hprimitives, s, rfl, rfl, hs, ht, hne⟩
    · rintro ⟨hprimitives, s', hs', ht', hs, ht, hne⟩
      obtain rfl := ImplType.builtin.inj hs'
      obtain rfl := TypeRef.builtin.inj ht'
      exact ⟨⟨hprimitives, hs, ht, hne⟩, rfl⟩
  · rename_i hother
    refine iff_of_false (by simp) ?_
    rintro ⟨-, s, rfl, rfl, -⟩
    exact hother s t rfl rfl

/-- A number can be cast to every numeric type. -/
theorem exists_castNumeric? {v : Value} (hv : v.runtimeType? = some ty)
    (h : config.castTarget? ty target = some t) : ∃ n, v.castNumeric? t = some n := by
  obtain ⟨-, s, rfl, -, hs, ht, -⟩ := castTarget?_eq_some_iff.1 h
  obtain ⟨n, hn, -⟩ := Value.castNumeric_total (Value.builtin?_of_runtimeType? hv) hs ht
  exact ⟨n, hn⟩

/-- A cast is a primitive explicit conversion. -/
theorem primitiveConversion?_of_castTarget? (h : config.castTarget? ty target = some t) :
    ∃ s, config.primitiveConversion? .explicit ty target = some (.conversion .explicit s t) := by
  obtain ⟨hprimitives, s, rfl, rfl, hs, ht, hne⟩ := castTarget?_eq_some_iff.1 h
  refine ⟨s, ?_⟩
  rw [primitiveConversion?, if_pos hprimitives]
  exact Primitive.findConversion?_of_mem (Primitive.explicit_mem_all_iff.2 ⟨hs, ht, hne⟩)

/-- Without a cast there is no primitive conversion, not even an implicit one: whatever widens can
be cast. -/
theorem primitiveConversion?_eq_none (h : config.castTarget? ty target = none)
    (kind : ConversionKind) : config.primitiveConversion? kind ty target = none := by
  refine Option.eq_none_iff_forall_ne_some.2 fun p hp => ?_
  obtain ⟨hprimitives, hfind⟩ := Option.ite_none_right_eq_some.1 hp
  obtain ⟨s, t, hs, rfl, rfl, hmem⟩ := Primitive.exists_of_findConversion? hfind
  obtain ⟨b, rfl⟩ : ∃ b, ty = .builtin b := by
    cases ty with
    | builtin b => exact ⟨b, rfl⟩
    | named idx => simp [ImplType.toRef] at hs
  obtain rfl := TypeRef.builtin.inj hs
  have hcast : b.isNumeric = true ∧ t.isNumeric = true ∧ b ≠ t := by
    cases kind with
    | explicit => exact Primitive.explicit_mem_all_iff.1 hmem
    | implicit =>
        obtain ⟨hb, ht, hwider⟩ := Primitive.implicit_mem_all_iff.1 hmem
        refine ⟨hb, ht, ?_⟩
        rintro rfl
        exact absurd hwider (by rw [Builtin.widensTo_self]; simp)
  have hsome := castTarget?_eq_some_iff.2 ⟨hprimitives, b, rfl, rfl, hcast⟩
  exact absurd (h.symm.trans hsome) (by simp)

end Config

/-! ## What a conversion operation is bound to -/

/-- A conversion to a type. -/
def Operation.ofConversion (name : String) (kind : ConversionKind) (target : TypeRef) :
    Operation where
  name
  kind := .conversion kind
  params := []
  ret := target

theorem Operation.inShape_ofConversion {target : TypeRef} (nonvoid : target ≠ .void)
    (concrete : ∀ i, target ≠ .param i) (name : String) (kind : ConversionKind) :
    (Operation.ofConversion name kind target).InShape where
  consistent := by simp [ofConversion]
  declared i h := absurd (h.resolve_left (by simp [ofConversion])) (concrete i)
  nonvoid := by simp [ofConversion]
  conversion _ _ := ⟨rfl, nonvoid⟩
  operator := by simp [ofConversion]
  getter := by simp [ofConversion]
  setter := by simp [ofConversion]

namespace Registry

variable {r : Registry} {config : Config} {ty : ImplType} {op : Operation} {kind : ConversionKind}
  {v : Value}

theorem map_decl_locate {α : Type} (owner : ImplType) (members : List α) :
    (locate owner members).map (·.decl) = members := by
  refine List.ext_getElem? fun i => ?_
  cases h : members[i]? <;> simp [locate, h]

theorem find?_conversions (r : Registry) (ty : ImplType) (kind : ConversionKind)
    (target : TypeRef) :
    ((r.conversions ty kind).find? (·.decl.target = target)).map (·.decl) =
      r.declaredConversion? kind ty target := by
  have hlocated := List.find?_map (f := fun c : Located ConversionDef => c.decl)
    (p := fun c => decide (c.kind = kind ∧ c.source = ty.toRef ∧ c.target = target))
    (l := locate ty ((r.members? ty).getD {}).conversions)
  rw [declaredConversion?, conversions, List.find?_filter,
    ← map_decl_locate ty ((r.members? ty).getD {}).conversions, hlocated, map_decl_locate]
  refine congrArg (fun q => Option.map _ (List.find? q _)) (funext fun c => ?_)
  simp [and_assoc]

/-- A conversion operation runs the first declared conversion, else the primitive one, else it gives
the value itself. -/
theorem run_of_resolve (hv : v ≠ .null) (name : String) (target : TypeRef) :
    (r.resolve config ty (.ofConversion name kind target)).map (·.run name (some v) []) =
      match r.declaredConversion? kind ty target, config.primitiveConversion? kind ty target with
      | some c, _ => some (c.body (some v) [])
      | none, some p => some (Eval.ofExcept (p.eval v none))
      | none, none => if target = ty.toRef then some (pure v) else none := by
  have hself := requireInstance_of_ne_null hv name
  show (r.resolveConversion config ty (.ofConversion name kind target) kind).map _ = _
  unfold resolveConversion Operation.ofConversion
  rw [← find?_conversions, Config.primitiveConversion?]
  dsimp only
  cases (r.conversions ty kind).find? (·.decl.target = target) with
  | some c =>
      simp only [Option.map_some, Binding.run, hself, Eval.ofExcept_ok, pure_bind, Coercion.apply,
        bind_pure]
  | none =>
      dsimp only [Option.map_none]
      cases if config.usePrimitives = true then Primitive.findConversion? kind ty.toRef target
        else none with
      | some p =>
          simp only [Option.map_some, Binding.run, hself, Eval.ofExcept_ok, pure_bind,
            Coercion.apply, List.isEmpty_nil, if_true, bind_pure]
      | none =>
          dsimp only
          split
          · simp only [Option.map_some, Binding.run, hself, Eval.ofExcept_ok]
          · rfl

/-- Explicit conversion comes first as a whole, and what is left to implicit conversion is what a
type declares. -/
theorem conversion?_eq_or (hv : v.runtimeType? = some ty) (target : TypeRef)
    (name name' : String) :
    r.conversion? config v ty target =
      ((r.resolve config ty (.ofConversion name .explicit target)).map
        (·.run name (some v) [])).or
        ((r.resolve config ty (.ofConversion name' .implicit target)).map
          (·.run name' (some v) [])) := by
  have hnull := (Value.present_of_runtimeType? hv).1
  rw [run_of_resolve hnull, run_of_resolve hnull, conversion?]
  cases r.declaredConversion? .explicit ty target with
  | some c => rfl
  | none =>
      cases hcast : config.castTarget? ty target with
      | some t =>
          obtain ⟨s, hprimitive⟩ := Config.primitiveConversion?_of_castTarget? hcast
          obtain ⟨n, hn⟩ := Config.exists_castNumeric? hv hcast
          simp only [hprimitive, Primitive.eval, hn]
          rfl
      | none =>
          simp only [Config.primitiveConversion?_eq_none hcast]
          by_cases hself : target = ty.toRef
          · simp [hself]
          · simp only [if_neg hself, Option.none_or]
            cases r.declaredConversion? .implicit ty target <;> rfl

theorem IsWithin.conversion? {r' : Registry} (h : r.IsWithin r') (isPublic : r.isPublic ty = true)
    {target : TypeRef} : r'.conversion? config v ty target = r.conversion? config v ty target := by
  simp only [Registry.conversion?, declaredConversion?, h.members? isPublic]

/-! ### Contracts of one conversion -/

/-- A public contract that asks for one operation in shape requires just that. -/
theorem requires_of_type? {idx : TypeIdx} {name : String}
    (h : r.type? idx = some ⟨name, true, .contract { operations := [op] }⟩)
    (inShape : op.InShape) : r.Requires idx op := by
  have hancestry : r.ancestry idx = [idx] := ancestry_of_parents_eq_nil (successors_of_known h)
  refine ⟨_, extract_eq_ok_iff.2 ⟨?_, rfl⟩, ?_⟩
  · intro c hc
    rw [hancestry] at hc
    obtain rfl := List.mem_singleton.1 hc
    refine ⟨_, h, rfl, rfl, fun op' hop' => ?_⟩
    obtain rfl := List.mem_singleton.1 hop'
    exact inShape
  · rw [hancestry]
    simp [ownRequired, h, TypeDef.operations, TypeDef.requirements, List.eraseDups_cons]

end Registry

/-! ## Asking the provider -/

namespace Provider

variable {r : Registry} {config : Config} {s : State} {ty : ImplType} {v : Value}
  {contract : TypeIdx} {op : Operation}

/-- A type satisfies a contract of one operation exactly if the operation is bound. -/
theorem check_of_requires (reached : Reached r config s) (isPublic : r.isPublic ty = true)
    (requires : r.Requires contract op) :
    outcome (check r config ty contract) s = .ok (r.resolve config ty op).isSome := by
  obtain ⟨spec, hextract, hoperations⟩ := requires
  have hmatch : Matches r config ⟨ty, contract⟩ (r.matchSpec config ty spec) :=
    matches_iff.2 ⟨spec, isPublic, hextract, rfl⟩
  have hsatisfied : (r.matchSpec config ty spec).satisfied = (r.resolve config ty op).isSome := by
    rw [Bool.eq_iff_iff, Registry.satisfied_iff, hoperations]
    simp
  rcases finds_or_error reached.keeps ⟨ty, contract⟩ with ⟨result, a, hfinds⟩ | ⟨-, e, herror⟩
  · obtain ⟨hfound, -⟩ := matches_of_finds reached.keeps hfinds
    obtain rfl := Except.ok.inj (hmatch.symm.trans hfound)
    rw [check_of_finds hfinds, hsatisfied]
  · exact absurd (hmatch.symm.trans herror) (by simp)

/-- A value is found to satisfy such a contract or not, and the provider goes on. -/
theorem satisfies_of_requires (reached : Reached r config s) (hv : v.runtimeType? = some ty)
    (isPublic : r.isPublic ty = true) (requires : r.Requires contract op) :
    ∃ s', Reached r config s' ∧
      satisfies r config v contract s = .ok (r.resolve config ty op).isSome s' := by
  have hcheck := check_of_requires reached isPublic requires
  have hsatisfies : satisfies r config v contract = check r config ty contract := by
    rw [satisfies, hv]
  rw [← hsatisfies] at hcheck
  cases hrun : satisfies r config v contract s with
  | error e s' => simp [outcome, hrun] at hcheck
  | ok b s' =>
      simp only [outcome, hrun, Except.ok.injEq] at hcheck
      have hserve : endState (serve r config (.satisfies v contract)) s = s' := by
        rw [endState, serve, bind_of_ok hrun]
        rfl
      exact ⟨s', hserve ▸ reached.serve (.satisfies v contract), by rw [hcheck]⟩

end Provider

/-! ## Converting -/

namespace World

variable {α : Type} {config : Config}

/-- The action gives what running a member gives, its errors as they are, and leaves the heap that
it leaves. -/
structure Runs (action : Action α) (w : World) (run : Eval α) : Prop where
  outcome : outcome action w = (outcome run w.heap).mapError .eval
  heap : (endState action w).heap = endState run w.heap

theorem Runs.of_eq {action action' : Action α} {w w' : World} {run : Eval α}
    (runs : Runs action' w' run) (h : action w = action' w') (heap : w'.heap = w.heap) :
    Runs action w run := by
  refine ⟨?_, ?_⟩
  · rw [Contracts.outcome, h]
    exact runs.outcome.trans (by rw [heap])
  · rw [endState, h]
    exact runs.heap.trans (by rw [heap])

theorem runs_eval (run : Registry → Eval α) (w : World) :
    Runs (eval run) w (run w.registry) := by
  constructor <;>
    (cases h : run w.registry w.heap <;>
      simp only [Contracts.outcome, endState, eval, h, Except.mapError])

/-- Converting through a contract runs what the contract's operation is bound to. -/
theorem runs_convertThrough {w : World} {v : Value} {contract : TypeIdx} {op : Operation}
    {run : Eval Value}
    (callIs : Provider.CallIs w.registry config w.provider v contract op [] run) :
    Runs (convertThrough config v contract op.slotName) w run := by
  obtain ⟨a, hconvert, rfl⟩ := callIs
  cases hcall : Provider.convert w.registry config v contract w.provider with
  | error e s => simp [Contracts.outcome, hcall] at hconvert
  | ok b s =>
      obtain rfl : b = a := by simpa [Contracts.outcome, hcall] using hconvert
      have hask : ask (fun r => Provider.convert r config v contract) w =
          .ok b { w with provider := s } := by rw [ask, hcall]
      exact (runs_eval (fun r => b.call r op.slotName []) { w with provider := s }).of_eq
        (bind_of_ok hask) rfl

/-- A value satisfies a contract of one operation exactly if the operation is bound. -/
theorem ask_satisfies {w : World} {v : Value} {ty : ImplType} {contract : TypeIdx} {op : Operation}
    (reached : Provider.Reached w.registry config w.provider) (hv : v.runtimeType? = some ty)
    (isPublic : w.registry.isPublic ty = true) (requires : w.registry.Requires contract op) :
    ∃ s, Provider.Reached w.registry config s ∧
      ask (fun r => Provider.satisfies r config v contract) w =
        .ok (w.registry.resolve config ty op).isSome { w with provider := s } := by
  obtain ⟨s, hreached, hsatisfies⟩ := Provider.satisfies_of_requires reached hv isPublic requires
  exact ⟨s, hreached, by rw [ask, hsatisfies]⟩

variable {target : TypeRef} {v : Value} {e i : TypeIdx} {w w₁ w₂ w₃ : World}

theorem convertTo_of_explicit (contracts : conversionContracts target w = .ok (e, i) w₁)
    (explicit : ask (fun r => Provider.satisfies r config v e) w₁ = .ok true w₂) :
    convertTo config v target w = convertThrough config v e "cast" w₂ := by
  rw [convertTo, bind_of_ok contracts]
  exact bind_of_ok explicit

theorem convertTo_of_implicit (contracts : conversionContracts target w = .ok (e, i) w₁)
    (explicit : ask (fun r => Provider.satisfies r config v e) w₁ = .ok false w₂)
    (implicit : ask (fun r => Provider.satisfies r config v i) w₂ = .ok true w₃) :
    convertTo config v target w = convertThrough config v i "convert" w₃ := by
  rw [convertTo, bind_of_ok contracts]
  exact (bind_of_ok explicit).trans (bind_of_ok implicit)

theorem convertTo_of_neither (contracts : conversionContracts target w = .ok (e, i) w₁)
    (explicit : ask (fun r => Provider.satisfies r config v e) w₁ = .ok false w₂)
    (implicit : ask (fun r => Provider.satisfies r config v i) w₂ = .ok false w₃)
    {ty : ImplType} (hv : v.runtimeType? = some ty) :
    convertTo config v target w = .error (.noConversion (w₃.registry.typeName ty.toRef)
      (w₃.registry.typeName target)) w₃ := by
  have hname : w₃.registry.valueTypeName v = w₃.registry.typeName ty.toRef := by
    rw [Registry.valueTypeName, hv]
  rw [convertTo, bind_of_ok contracts, ← hname]
  refine ((bind_of_ok explicit).trans (bind_of_ok implicit)).trans ?_
  simp only [hv, Option.isNone_some, Bool.false_eq_true, if_false]
  rfl

/-- Once the two contracts are there, the value is converted in the first way that there is. -/
theorem convertTo_of_contracts {r : Registry} {ty : ImplType}
    (contracts : conversionContracts target w = .ok (e, i) { w with registry := r })
    (reached : Provider.Reached r config w.provider) (hv : v.runtimeType? = some ty)
    (isPublic : r.isPublic ty = true) (casts : r.Requires e (.ofConversion "cast" .explicit target))
    (converts : r.Requires i (.ofConversion "convert" .implicit target)) :
    (∀ run, r.conversion? config v ty target = some run →
      Runs (convertTo config v target) w run) ∧
      (r.conversion? config v ty target = none → ∃ s, convertTo config v target w =
        .error (.noConversion (r.typeName ty.toRef) (r.typeName target)) ⟨r, w.heap, s⟩) := by
  obtain ⟨s₁, reached₁, hexplicit⟩ :=
    ask_satisfies (w := { w with registry := r }) reached hv isPublic casts
  rw [Registry.conversion?_eq_or hv target "cast" "convert"]
  cases hcast : r.resolve config ty (.ofConversion "cast" .explicit target) with
  | some b =>
      rw [hcast] at hexplicit
      refine ⟨fun run hrun => ?_, fun hnone => absurd hnone (by simp)⟩
      obtain rfl := Option.some.inj hrun
      have callIs := Provider.callIs_of_offers reached₁ hv
        (Registry.offers_of_bound casts isPublic hcast []) hcast .nil
      exact (runs_convertThrough (w := ⟨r, w.heap, s₁⟩) callIs).of_eq
        (convertTo_of_explicit contracts hexplicit) rfl
  | none =>
      rw [hcast] at hexplicit
      obtain ⟨s₂, reached₂, himplicit⟩ :=
        ask_satisfies (w := ⟨r, w.heap, s₁⟩) reached₁ hv isPublic converts
      cases hconvert : r.resolve config ty (.ofConversion "convert" .implicit target) with
      | some b =>
          rw [hconvert] at himplicit
          refine ⟨fun run hrun => ?_, fun hnone => absurd hnone (by simp)⟩
          obtain rfl := Option.some.inj hrun
          have callIs := Provider.callIs_of_offers reached₂ hv
            (Registry.offers_of_bound converts isPublic hconvert []) hconvert .nil
          exact (runs_convertThrough (w := ⟨r, w.heap, s₂⟩) callIs).of_eq
            (convertTo_of_implicit contracts hexplicit himplicit) rfl
      | none =>
          rw [hconvert] at himplicit
          exact ⟨fun run hrun => absurd hrun (by simp),
            fun _ => ⟨s₂, convertTo_of_neither contracts hexplicit himplicit hv⟩⟩

/-- **The order of dynamic conversion.** A provider that remembers nothing converts a value, whose
type may be used, to a type that can be a result, and nothing has taken the names of the contracts
of conversion to it. Then the value is converted in the first way that there is
(`Registry.conversion?`), and what a member fails with is what the conversion fails with. Casting a
number is always a way. If there is no way, then the failure names the two types, and nothing was
run. The one thing that can come in between is that the registry has no room for the two
contracts. -/
theorem converts_of_fresh {ty : ImplType} (config : Config) (fresh : w.provider.cache = {})
    (hv : v.runtimeType? = some ty) (isPublic : w.registry.isPublic ty = true)
    (nonvoid : target ≠ .void) (concrete : ∀ i, target ≠ .param i)
    (free : target.ConversionNamesFree w.registry) :
    (∀ t, config.castTarget? ty target = some t → ∃ n, v.castNumeric? t = some n) ∧
    ((UInt32.size < w.registry.types.size + 2 ∧
        outcome (convertTo config v target) w = .error (.registry .tooManyTypes)) ∨
      (∀ run, w.registry.conversion? config v ty target = some run →
        Runs (convertTo config v target) w run) ∧
      (w.registry.conversion? config v ty target = none → ∃ w' name,
        convertTo config v target w =
          .error (.noConversion (w.registry.typeName ty.toRef) name) w' ∧
        w'.heap = w.heap ∧ name = w'.registry.typeName target ∧
        ((∀ idx, target = .named idx → ∃ d, w.registry.type? idx = some d) →
          name = w.registry.typeName target))) := by
  refine ⟨fun t hcast => Config.exists_castNumeric? hv hcast, ?_⟩
  rcases conversionContracts_of_free free with
    ⟨e, i, r, contracts, within, ⟨_, he⟩, ⟨_, hi⟩⟩ | ⟨room, herror⟩
  · have reached : Provider.Reached r config w.provider := by
      have hprovider : w.provider = { nextId := w.provider.nextId } := by rw [← fresh]
      rw [hprovider]
      exact .fresh _
    obtain ⟨hruns, hnone⟩ := convertTo_of_contracts contracts reached hv (within.isPublic isPublic)
      (Registry.requires_of_type? he (Operation.inShape_ofConversion nonvoid concrete _ _))
      (Registry.requires_of_type? hi (Operation.inShape_ofConversion nonvoid concrete _ _))
    -- The two contracts leave the conversions of the value's type as they are.
    rw [within.conversion? isPublic] at hruns hnone
    refine Or.inr ⟨hruns, fun hway => ?_⟩
    obtain ⟨s, herror⟩ := hnone hway
    rw [within.typeName_of_isPublic isPublic] at herror
    exact ⟨_, _, herror, rfl, rfl, Registry.typeName_of_known within.types⟩
  · exact Or.inl ⟨room, outcome_bind_of_error herror⟩

/-- A class of temperatures, which says how it converts to itself and to text. -/
def celsiusRegistry : Registry where
  types := #[⟨"Celsius", true, .implementation true { members := { conversions :=
    [⟨.implicit, .named ⟨0⟩, .named ⟨0⟩, fun _ _ => throw (.custom "a temperature of its own")⟩,
      ⟨.implicit, .named ⟨0⟩, .builtin .str, fun _ _ => throw (.custom "too cold")⟩] } }⟩]

theorem conversionNamesFree_celsius :
    ∀ target ∈ [TypeRef.named ⟨0⟩, .builtin .str, .builtin .bool],
      target.ConversionNamesFree celsiusRegistry := by
  intro target htarget
  refine TypeRef.conversionNamesFree_of_unclaimed ?_ ?_ ?_
  · rintro idx rfl
    obtain rfl : idx = ⟨0⟩ := by simpa using htarget
    exact ⟨_, rfl⟩
  all_goals
    refine StandardContract.unclaimed_of_byName?_eq_none ?_
    revert target
    decide +kernel

/-- A temperature is itself without being converted. It fails to become text with the error of its
own conversion, and there is no way for it to become a truth value. -/
theorem converts_of_fresh_celsius :
    let w : World := { registry := celsiusRegistry }
    let v : Value := .object ⟨0, ⟨0⟩⟩
    outcome (convertTo {} v (.named ⟨0⟩)) w = .ok v ∧
      outcome (convertTo {} v (.builtin .str)) w = .error (.eval (.custom "too cold")) ∧
      outcome (convertTo {} v (.builtin .bool)) w = .error (.noConversion "Celsius" "bool") := by
  intro w v
  have hroom : ¬UInt32.size < w.registry.types.size + 2 := by decide
  have htype : v.runtimeType? = some (.named ⟨0⟩) := rfl
  have ways : ∀ target ∈ [TypeRef.named ⟨0⟩, .builtin .str, .builtin .bool], _ :=
    fun target htarget => converts_of_fresh {} (rfl : w.provider.cache = {}) htype rfl
      (by rintro rfl; simp at htarget) (by rintro i rfl; simp at htarget)
      (conversionNamesFree_celsius target htarget)
  refine ⟨?_, ?_, ?_⟩
  · obtain ⟨-, hfull | ⟨hruns, -⟩⟩ := ways (.named ⟨0⟩) (by simp)
    · exact absurd hfull.1 hroom
    · exact (hruns (pure v) rfl).outcome
  · obtain ⟨-, hfull | ⟨hruns, -⟩⟩ := ways (.builtin .str) (by simp)
    · exact absurd hfull.1 hroom
    · exact (hruns _ rfl).outcome
  · obtain ⟨-, hfull | ⟨-, hnone⟩⟩ := ways (.builtin .bool) (by simp)
    · exact absurd hfull.1 hroom
    · obtain ⟨w', name, herror, -, -, hname⟩ := hnone rfl
      rw [hname (by simp)] at herror
      rw [Contracts.outcome, herror]
      rfl

end World

end Contracts
