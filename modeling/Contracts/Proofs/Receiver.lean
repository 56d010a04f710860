import Contracts.Proofs.Forwarding
import Contracts.Proofs.Lifecycle
import Contracts.Proofs.Resolution

set_option autoImplicit false

/-! # No adapter lacks the receiver it needs

Running a binding looks for the instance of the adapter, and fails if there is none, unless what is
bound is a static method. `Workspace.equipped_of_reply` says that this never happens to an adapter
that a provider has handed out, however old the match is that its adapter type was made from: either
it holds an instance of the type that was matched, or all of its operations are bound to static
methods (`Adapter.Equipped`). -/

namespace Contracts

/-! ## Static methods -/

/-- Whether the target is a static method, the one target that needs no instance. -/
def Target.isStaticMethod : Target → Bool
  | .method m => m.decl.isStatic
  | .conversion _ | .identity | .operator _ | .primitive _ | .property _ => false

namespace Registry

variable {r : Registry} {config : Config} {ty : ImplType} {op : Operation} {b : Binding}

/-- A static operation is bound to a static method. -/
theorem isStaticMethod_of_resolve (hstatic : op.isStatic = true)
    (h : r.resolve config ty op = some b) : b.target.isStaticMethod = true := by
  have hkind : op.kind = .staticMethod := of_decide_eq_true hstatic
  simp only [resolve, hkind] at h
  obtain ⟨m, hm, -, hb⟩ := exists_of_resolveMethod h
  have hpasses := (List.mem_filter.1 hm).2
  simp only [MethodFilter.admits_onType, Bool.and_eq_true] at hpasses
  rw [target_of_bindMethod? hb]
  exact hpasses.1.1.2

/-- A match for a contract of static methods binds static methods only. -/
theorem isStaticMethod_of_isStaticOnly {spec : ContractSpec} (hstatic : spec.isStaticOnly = true)
    (hb : b ∈ (r.matchSpec config ty spec).bindings) : b.target.isStaticMethod = true := by
  obtain ⟨op, hop, hresolve⟩ := List.mem_filterMap.1 hb
  exact isStaticMethod_of_resolve (List.all_eq_true.1 hstatic op hop) hresolve

end Registry

/-- A result found for a contract of static methods binds static methods only, whenever that was. -/
theorem Provider.isStaticMethod_of_found {key : CacheKey} {result : MatchResult} {b : Binding}
    (h : Found key result) (hstatic : result.staticOnly = true) (hb : b ∈ result.bindings) :
    b.target.isStaticMethod = true := by
  obtain ⟨r, config, h⟩ := h
  obtain ⟨spec, -, -, rfl⟩ := matches_iff.1 h
  exact Registry.isStaticMethod_of_isStaticOnly hstatic hb

/-- A static method is run on no receiver, whether there is an instance or not. -/
theorem Binding.run_of_isStatic {b : Binding} {m : Located MethodDef}
    (htarget : b.target = .method m) (hstatic : m.decl.isStatic = true) (name : String)
    (self? : Option Value) (args : List Value) :
    b.run name self? args = (do
      let args ← Eval.ofExcept (b.coercedArgs args)
      let w ← m.decl.body none args
      Eval.ofExcept (b.ret.apply w)) := by
  simp only [Binding.run, htarget, hstatic, if_true]

/-! ## Calls that are refused -/

namespace AdapterType

variable {r : Registry} {name : String} {args : List Value}

/-- Selection fails for other reasons than the absence of an instance. -/
theorem select_ne_nullReceiver (a : AdapterType) {failure : Option EvalError}
    {candidates : List Slot} {e : EvalError}
    (hfailure : ∀ e ∈ failure, ∀ operation, e ≠ .nullReceiver operation)
    (h : a.select r name args failure candidates = .error e) (operation : String) :
    e ≠ .nullReceiver operation := by
  induction candidates generalizing failure with
  | nil =>
      obtain rfl := Except.error.inj h
      cases failure with
      | none => simp
      | some e => exact hfailure e rfl operation
  | cons slot rest ih =>
      simp only [select] at h
      split at h
      · refine ih (fun e he => ?_) h
        cases failure with
        | none =>
            obtain rfl := Option.some.inj he
            simp
        | some e' => exact hfailure e he
      · split at h
        · exact absurd h (by simp)
        · refine ih (fun e he => ?_) h
          obtain rfl := Option.some.inj he
          simp

/-- A call that picks no slot is refused. -/
theorem exists_refusal {a : AdapterType} (h : ∀ slot, ¬a.Picks r name args slot)
    (self? : Option Value) :
    ∃ e, a.invoke r self? name args = throw e ∧ ∀ operation, e ≠ .nullReceiver operation := by
  cases hcandidates : a.candidates? name with
  | none => exact ⟨_, by rw [invoke, hcandidates], by simp⟩
  | some candidates =>
      cases hselect : a.select r name args none candidates with
      | ok slot => exact absurd ⟨candidates, hcandidates, hselect⟩ (h slot)
      | error e =>
          refine ⟨e, ?_, select_ne_nullReceiver a (by simp) hselect⟩
          simp only [invoke, hcandidates, hselect]
          rfl

end AdapterType

/-! ## Adapters with what they need -/

namespace Adapter

/-- How a call through an adapter goes as far as the instance is concerned: it is refused before
there is need of one, it runs a static method without one, or it passes the check for one. -/
inductive Receives (a : Adapter) (r : Registry) (name : String) (args : List Value) : Prop
  | refused (e : EvalError) (unpicked : ∀ slot, ¬a.type.Picks r name args slot)
      (call : a.call r name args = throw e) (other : ∀ operation, e ≠ .nullReceiver operation)
  | static (slot : Slot) (m : Located MethodDef) (picks : a.type.Picks r name args slot)
      (target : slot.binding.target = .method m) (isStatic : m.decl.isStatic = true)
      (call : a.call r name args = do
        let args ← Eval.ofExcept (slot.binding.coercedArgs args)
        let w ← m.decl.body none args
        Eval.ofExcept (slot.binding.ret.apply w))
  | checked (slot : Slot) (v : Value) (picks : a.type.Picks r name args slot)
      (passes : requireInstance a.self? slot.name = .ok v) (held : a.self? = some v)
      (call : a.call r name args = slot.binding.run slot.name (some v) args)

/-- The adapter has what its operations need, whatever has become of the registry. -/
structure Equipped (a : Adapter) : Prop where
  /-- The adapter type was made from a match of its type and contract. -/
  found : Provider.Found ⟨a.type.result.implType, a.type.result.contract⟩ a.type.result
  made : a.type = .synthesize a.type.id a.type.result
  satisfied : a.type.result.satisfied = true
  /-- An adapter without an instance has only static methods to run. -/
  unheld : a.self? = none → ∀ b ∈ a.type.result.bindings, b.target.isStaticMethod = true
  held : ∀ v, a.self? = some v →
    v ≠ .null ∧ v ≠ .void ∧ v.runtimeType? = some a.type.result.implType
  receives : ∀ r name args, a.Receives r name args

/-- A call finds the instance that it needs if the adapter holds one, or if it needs none. -/
theorem receives_of_held_or_static {a : Adapter}
    (made : a.type = .synthesize a.type.id a.type.result)
    (unheld : a.self? = none → ∀ b ∈ a.type.result.bindings, b.target.isStaticMethod = true)
    (held : ∀ v, a.self? = some v → v ≠ .null) (r : Registry) (name : String) (args : List Value) :
    a.Receives r name args := by
  by_cases hpicked : ∃ slot, a.type.Picks r name args slot
  · obtain ⟨slot, hpicks⟩ := hpicked
    have hcall : a.call r name args = slot.binding.run slot.name a.self? args :=
      hpicks.invoke a.self?
    cases hself : a.self? with
    | some v =>
        refine .checked slot v hpicks ?_ hself (hself ▸ hcall)
        rw [hself, requireInstance_of_ne_null (held v hself)]
    | none =>
        have hslot := hpicks.mem
        rw [made] at hslot
        obtain ⟨b, hb, rfl⟩ := List.mem_map.1 hslot
        have hstatic := unheld hself b hb
        cases htarget : b.target with
        | method m =>
            rw [htarget] at hstatic
            refine .static _ m hpicks htarget hstatic ?_
            rw [hcall, Binding.run_of_isStatic htarget hstatic]
        | conversion | identity | operator | primitive | property =>
            rw [htarget] at hstatic
            exact absurd hstatic (by simp [Target.isStaticMethod])
  · have hunpicked := not_exists.1 hpicked
    obtain ⟨e, hcall, hother⟩ := AdapterType.exists_refusal hunpicked a.self?
    exact .refused e hunpicked hcall hother

end Adapter

namespace Provider

variable {r : Registry} {config : Config}

/-- As long as the cache holds results that matches gave, whenever that was, every adapter that is
handed out is equipped. -/
theorem equipped_of_serve {s : State} (keeps : Keeps Found s) {q : Request} {a : Adapter}
    (h : outcome (serve r config q) s = .ok (.adapter a)) :
    a.Equipped ∧ ((∃ v contract, q = .convert v contract ∧ a.self? = some v) ∨
      ∃ ty contract, q = .convertStatic ty contract ∧ a.self? = none) := by
  obtain ⟨⟨ty, contract⟩, result, hfinds, satisfied, hcase⟩ := exists_finds_of_adapter keeps h
  obtain ⟨hfound, made⟩ := found_of_finds keeps found_of_matches hfinds
  obtain rfl : a.type.result = result := by rw [made, AdapterType.synthesize]
  obtain ⟨rfl, rfl⟩ := hfound.belongs
  have needs : (a.self? = none → ∀ b ∈ a.type.result.bindings, b.target.isStaticMethod = true) ∧
      ∀ v, a.self? = some v →
        v ≠ .null ∧ v ≠ .void ∧ v.runtimeType? = some a.type.result.implType := by
    rcases hcase with ⟨v, _, -, hv, hself⟩ | ⟨_, _, -, hstatic, hself⟩
    · refine ⟨fun hnone => absurd (hself.symm.trans hnone) (by simp), fun v' hself' => ?_⟩
      obtain rfl := Option.some.inj (hself.symm.trans hself')
      obtain ⟨hnull, hvoid⟩ := Value.present_of_runtimeType? hv
      exact ⟨hnull, hvoid, hv⟩
    · exact ⟨fun _ b hb => isStaticMethod_of_found hfound hstatic hb,
        fun v hself' => absurd (hself.symm.trans hself') (by simp)⟩
  obtain ⟨unheld, held⟩ := needs
  refine ⟨⟨hfound, made, satisfied, unheld, held, ?_⟩, ?_⟩
  · exact Adapter.receives_of_held_or_static made unheld fun v hself => (held v hself).1
  · rcases hcase with ⟨v, contract, rfl, -, hself⟩ | ⟨ty, contract, rfl, -, hself⟩
    · exact Or.inl ⟨v, contract, rfl, hself⟩
    · exact Or.inr ⟨ty, contract, rfl, hself⟩

end Provider

namespace Workspace

/-- **No adapter lacks the receiver it needs.** Whatever happened before, from any registry on and
with any number of providers, an adapter that a provider hands out is equipped: one for a converted
value holds that value, and one without an instance comes from a contract of static methods. -/
theorem equipped_of_reply {registry : Registry} {heap : Heap} {nextId : Nat} {past : List Event}
    {name : String} {q : Provider.Request} {a : Adapter}
    (h : (Workspace.run { registry, heap, nextId } past).reply? name q = some (.ok (.adapter a))) :
    a.Equipped ∧ ((∃ v contract, q = .convert v contract ∧ a.self? = some v) ∨
      ∃ ty contract, q = .convertStatic ty contract ∧ a.self? = none) := by
  have kept : (Workspace.run { registry, heap, nextId } past).Kept :=
    kept_run (fun _ => Provider.keeps_fresh _ nextId) past
  cases hp : (Workspace.run { registry, heap, nextId } past).provider? name with
  | none => exact absurd h (by simp [reply?, hp])
  | some p =>
      rw [reply?_eq hp, Option.some.injEq] at h
      exact Provider.equipped_of_serve (kept name) h

/-! ### A factory without an instance -/

/-- Making a number out of nothing. -/
def makeOperation : Operation where
  name := "make"
  kind := .staticMethod
  params := []
  ret := .builtin (.int .i32)

/-- Makes nothing else than seven. -/
def makeMethod : MethodDef where
  toSignature := makeOperation.toSignature
  name := "make"
  isStatic := true
  body := fun _ _ => pure (IntType.i32.wrap 7)

/-- A contract for factories, and a factory. -/
def factoryRegistry : Registry where
  types := #[
    ⟨"Factory", true, .contract { operations := [makeOperation] }⟩,
    ⟨"Sevens", true, .implementation false { members := { methods := [makeMethod] } }⟩]

/-- The contract with all that it asks for. -/
def factorySpec : ContractSpec := ⟨⟨0⟩, "Factory", [makeOperation]⟩

theorem equipped_of_reply_factory :
    ∃ a, (Workspace.run { registry := factoryRegistry } [.create "main" {}]).reply? "main"
        (.convertStatic (.named ⟨1⟩) ⟨0⟩) = some (.ok (.adapter a)) ∧
      a.self? = none ∧ a.Equipped := by
  have hextract : factoryRegistry.extract ⟨0⟩ = .ok factorySpec := by
    rw [Registry.extract, Registry.ancestry_of_parents_eq_nil rfl]
    rfl
  have hmatch : Provider.Matches factoryRegistry {} ⟨.named ⟨1⟩, ⟨0⟩⟩
      (factoryRegistry.matchSpec {} (.named ⟨1⟩) factorySpec) :=
    Provider.matches_iff.2 ⟨factorySpec, rfl, hextract, rfl⟩
  have hreply : (Workspace.run { registry := factoryRegistry } [.create "main" {}]).reply? "main"
      (.convertStatic (.named ⟨1⟩) ⟨0⟩) = some (.ok (.adapter
        ⟨.synthesize 1 (factoryRegistry.matchSpec {} (.named ⟨1⟩) factorySpec), none⟩)) := by
    have hfinds : Provider.Finds factoryRegistry {} {} ⟨.named ⟨1⟩, ⟨0⟩⟩ _ _ :=
      .fresh _ rfl hmatch
    have hkey : (Provider.Request.convertStatic (.named ⟨1⟩) ⟨0⟩).key? =
        some ⟨.named ⟨1⟩, ⟨0⟩⟩ := rfl
    rw [reply?_eq rfl]
    exact congrArg some (Provider.outcome_of_finds hkey hfinds)
  exact ⟨_, hreply, rfl, (equipped_of_reply hreply).1⟩

end Workspace

end Contracts
