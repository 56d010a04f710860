import Contracts.Proofs.Receiver
import Contracts.Proofs.Surface

set_option autoImplicit false

/-! # Overloads of an adapter

Operations of one contract may be called by one name. `Workspace.dispatches_of_reply` says which of
them a call through an adapter runs, and what becomes of a call that none of them accepts
(`Adapter.Dispatches`): the scan over the candidates keeps one failure, which a wrong number of
arguments only sets if there is none, and a wrong type always replaces. So the last wrong type is
reported, and only without any the first wrong number. -/

namespace Contracts

/-! ## What a slot accepts -/

/-- There is one argument for each parameter, of a type that the parameter accepts. -/
def Operation.accepts (r : Registry) (args : List Value) (op : Operation) : Bool :=
  op.params.length = args.length && (op.params.zip args).all fun (ty, v) => r.accepts ty v

theorem Operation.accepts_iff {r : Registry} {args : List Value} {op : Operation} :
    op.accepts r args = true ↔
      List.Forall₂ (fun ty v => r.accepts ty v = true) op.params args := by
  rw [accepts, Bool.and_eq_true, decide_eq_true_iff, List.all_eq_true, List.forall₂_iff_zip]
  exact and_congr_right fun _ => ⟨fun h ty v hmem => h (ty, v) hmem, fun h e hmem => h hmem⟩

namespace Slot

/-- The number of parameters. -/
def arity (slot : Slot) : Nat := slot.binding.operation.params.length

/-- The operation of the slot accepts the arguments. -/
def accepts (r : Registry) (args : List Value) (slot : Slot) : Bool :=
  slot.binding.operation.accepts r args

variable {r : Registry} {args : List Value} {slot : Slot}

theorem accepts_eq_false_iff : slot.accepts r args = false ↔
    ¬List.Forall₂ (fun ty v => r.accepts ty v = true) slot.binding.operation.params args := by
  rw [← Operation.accepts_iff, Bool.not_eq_true, accepts]

/-- What is rejected for another reason than the number of arguments has a first argument of the
wrong type. -/
theorem exists_mismatch (rejected : slot.accepts r args = false)
    (counted : slot.arity = args.length) :
    ∃ ty v, AdapterType.mismatch? r slot.binding.operation.params args = some (ty, v) := by
  cases h : AdapterType.mismatch? r slot.binding.operation.params args with
  | none =>
      have haccepted := AdapterType.accepted_of_mismatch?_eq_none counted h
      exact absurd haccepted (accepts_eq_false_iff.1 rejected)
  | some e => exact ⟨e.1, e.2, rfl⟩

end Slot

/-! ## The scan over the candidates -/

namespace AdapterType

variable {r : Registry} {name : String} {args : List Value} (a : AdapterType)
  {failure : Option EvalError} {candidates : List Slot} {slot : Slot}

theorem select_cons_of_uncounted (uncounted : slot.arity ≠ args.length) (rest : List Slot) :
    a.select r name args failure (slot :: rest) = a.select r name args
      (failure <|> some (.wrongArgCount name slot.arity args.length)) rest := by
  rw [select]
  exact if_pos uncounted

theorem select_cons_of_mismatch (counted : slot.arity = args.length) {ty : TypeRef} {v : Value}
    (mismatched : mismatch? r slot.binding.operation.params args = some (ty, v))
    (rest : List Slot) :
    a.select r name args failure (slot :: rest) = a.select r name args
      (some (.wrongArgType name (r.typeName ty) (r.valueTypeName v))) rest := by
  rw [select, mismatched]
  exact if_neg (not_not.2 counted)

theorem select_of_find? (h : candidates.find? (·.accepts r args) = some slot) :
    a.select r name args failure candidates = .ok slot := by
  obtain ⟨accepted, before, after, rfl, rejected⟩ := List.find?_eq_some_iff_append.1 h
  refine select_append a (fun s hs => ?_) (Operation.accepts_iff.1 accepted)
  exact Slot.accepts_eq_false_iff.1 (by simpa using rejected s hs)

/-- Slots that reject the arguments leave nothing behind but some failure. -/
theorem exists_select_append {before : List Slot} (rest : List Slot)
    (rejected : ∀ s ∈ before, s.accepts r args = false) (failure : Option EvalError) :
    ∃ failure', a.select r name args failure (before ++ rest) =
      a.select r name args failure' rest := by
  induction before generalizing failure with
  | nil => exact ⟨failure, rfl⟩
  | cons first before ih =>
      obtain ⟨hfirst, hbefore⟩ := List.forall_mem_cons.1 rejected
      rw [List.cons_append]
      by_cases counted : first.arity = args.length
      · obtain ⟨ty, v, hmismatch⟩ := Slot.exists_mismatch hfirst counted
        rw [a.select_cons_of_mismatch counted hmismatch]
        exact ih hbefore _
      · rw [a.select_cons_of_uncounted counted]
        exact ih hbefore _

/-- Slots with another number of parameters keep the failure that there is, or report the number of
the first. -/
theorem select_of_uncounted (uncounted : ∀ s ∈ candidates, s.arity ≠ args.length) :
    a.select r name args failure candidates =
      .error ((failure <|> candidates.head?.map fun s =>
        EvalError.wrongArgCount name s.arity args.length).getD
          (.undefinedOperation name a.name)) := by
  induction candidates generalizing failure with
  | nil => cases failure <;> rfl
  | cons first rest ih =>
      obtain ⟨hfirst, hrest⟩ := List.forall_mem_cons.1 uncounted
      rw [a.select_cons_of_uncounted hfirst, ih hrest]
      cases failure <;> rfl

/-- If all are rejected, then the last with the right number of parameters is reported, for its
first argument of the wrong type. -/
theorem select_of_last (rejected : ∀ s ∈ candidates, s.accepts r args = false)
    (last : candidates.reverse.find? (·.arity = args.length) = some slot) :
    ∃ ty v, mismatch? r slot.binding.operation.params args = some (ty, v) ∧
      a.select r name args failure candidates =
        .error (.wrongArgType name (r.typeName ty) (r.valueTypeName v)) := by
  obtain ⟨counted, after, before, hsplit, uncounted⟩ := List.find?_eq_some_iff_append.1 last
  obtain rfl : candidates = before.reverse ++ slot :: after.reverse := by
    simpa using congrArg List.reverse hsplit
  have hcounted : slot.arity = args.length := of_decide_eq_true counted
  obtain ⟨ty, v, hmismatch⟩ := Slot.exists_mismatch (rejected slot (by simp)) hcounted
  obtain ⟨failure', hbefore⟩ := a.exists_select_append (slot :: after.reverse)
    (fun s hs => rejected s (List.mem_append_left _ hs)) failure
  have hafter : ∀ s ∈ after.reverse, s.arity ≠ args.length := fun s hs => by
    simpa using uncounted s (List.mem_reverse.1 hs)
  refine ⟨ty, v, hmismatch, ?_⟩
  rw [hbefore, a.select_cons_of_mismatch hcounted hmismatch]
  exact a.select_of_uncounted hafter

/-! ## Dispatch -/

/-- The slot that a call under the name with the arguments goes to. -/
def dispatch (r : Registry) (name : String) (args : List Value) : Except EvalError Slot :=
  match a.candidates? name with
  | none => .error (.undefinedOperation name a.name)
  | some candidates => a.select r name args none candidates

/-- A call runs what it is dispatched to; if that is nothing, it does nothing but fail. -/
theorem invoke_eq (r : Registry) (self? : Option Value) (name : String) (args : List Value) :
    a.invoke r self? name args = match a.dispatch r name args with
      | .ok slot => slot.binding.run slot.name self? args
      | .error e => throw e := by
  unfold invoke dispatch
  cases a.candidates? name with
  | none => rfl
  | some candidates =>
      cases h : a.select r name args none candidates <;> simp only [h] <;> rfl

variable {a} {n : Nat} {result : MatchResult}

/-- The candidates are the slots of the name, also if there are none. -/
theorem dispatch_eq_select (made : a = .synthesize n result) :
    a.dispatch r name args = a.select r name args none (a.slots.filter (·.name = name)) := by
  subst made
  rw [dispatch, candidates?_synthesize]
  by_cases h : (synthesize n result).slots.filter (·.name = name) = []
  · rw [if_pos h, h]
    rfl
  · rw [if_neg h]

theorem find?_named (p : Slot → Bool) (slots : List Slot) (name : String) :
    (slots.filter (·.name = name)).find? p = slots.find? fun s => s.name = name && p s := by
  rw [List.find?_filter]
  exact congrArg (List.find? · slots) (funext fun s => by simp)

/-- What is found under a name has the name. -/
theorem name_of_find? {α : Type} {xs : List α} {f : α → String} {q : α → Bool} {x : α}
    (h : xs.find? (fun x => f x = name && q x) = some x) : f x = name := by
  have hfound := List.find?_some h
  simp only [Bool.and_eq_true, decide_eq_true_eq] at hfound
  exact hfound.1

theorem dispatch_eq_ok_iff (made : a = .synthesize n result) :
    a.dispatch r name args = .ok slot ↔
      a.slots.find? (fun s => s.name = name && s.accepts r args) = some slot := by
  rw [dispatch_eq_select made, ← find?_named]
  refine ⟨fun h => ?_, a.select_of_find?⟩
  obtain ⟨hslot, haccepted⟩ := accepted_of_select h
  obtain ⟨found, hfound⟩ := Option.isSome_iff_exists.1
    (List.find?_isSome (p := (·.accepts r args)).2
      ⟨slot, hslot, Operation.accepts_iff.2 haccepted⟩)
  rw [hfound, Except.ok.inj ((a.select_of_find? hfound).symm.trans h)]

theorem dispatch_of_counted (made : a = .synthesize n result)
    (rejected : ∀ s ∈ a.slots, s.name = name → s.accepts r args = false)
    (counted : ∃ s ∈ a.slots, s.name = name ∧ s.arity = args.length) :
    ∃ slot ty v,
      a.slots.reverse.find? (fun s => s.name = name && s.arity = args.length) = some slot ∧
      mismatch? r slot.binding.operation.params args = some (ty, v) ∧
      a.dispatch r name args =
        .error (.wrongArgType name (r.typeName ty) (r.valueTypeName v)) := by
  obtain ⟨s, hs, hname, hcounted⟩ := counted
  have hsome : (a.slots.reverse.find?
      (fun s => s.name = name && s.arity = args.length)).isSome = true :=
    List.find?_isSome.2 ⟨s, List.mem_reverse.2 hs, by simp [hname, hcounted]⟩
  obtain ⟨slot, hslot⟩ := Option.isSome_iff_exists.1 hsome
  have hrejected : ∀ s ∈ a.slots.filter (·.name = name), s.accepts r args = false := by
    simpa using rejected
  have hlast : (a.slots.filter (·.name = name)).reverse.find? (·.arity = args.length) =
      some slot := by
    rw [← List.filter_reverse, find?_named, hslot]
  obtain ⟨ty, v, hmismatch, hselect⟩ := a.select_of_last hrejected hlast
  exact ⟨slot, ty, v, hslot, hmismatch, (dispatch_eq_select made).trans hselect⟩

theorem dispatch_of_uncounted (made : a = .synthesize n result)
    (named : ∃ s ∈ a.slots, s.name = name)
    (uncounted : ∀ s ∈ a.slots, s.name = name → s.arity ≠ args.length) :
    ∃ slot, a.slots.find? (·.name = name) = some slot ∧
      a.dispatch r name args = .error (.wrongArgCount name slot.arity args.length) := by
  obtain ⟨s, hs, hname⟩ := named
  obtain ⟨slot, hslot⟩ := Option.isSome_iff_exists.1
    (List.find?_isSome (p := (·.name = name)).2 ⟨s, hs, decide_eq_true hname⟩)
  have huncounted : ∀ s ∈ a.slots.filter (·.name = name), s.arity ≠ args.length := by
    simpa using uncounted
  refine ⟨slot, hslot, ?_⟩
  rw [dispatch_eq_select made, a.select_of_uncounted huncounted, List.head?_filter, hslot]
  rfl

theorem dispatch_eq_undefined_iff (made : a = .synthesize n result) :
    a.dispatch r name args = .error (.undefinedOperation name a.name) ↔
      ∀ s ∈ a.slots, s.name ≠ name := by
  constructor
  · intro h s hs hname
    -- A slot of the name is run, or else complained about.
    by_cases rejected : ∀ s ∈ a.slots, s.name = name → s.accepts r args = false
    · by_cases counted : ∃ s ∈ a.slots, s.name = name ∧ s.arity = args.length
      · obtain ⟨_, _, _, -, -, herror⟩ := dispatch_of_counted made rejected counted
        exact absurd (h.symm.trans herror) (by simp)
      · obtain ⟨_, -, herror⟩ := dispatch_of_uncounted made ⟨s, hs, hname⟩
          fun s hs hname hcount => counted ⟨s, hs, hname, hcount⟩
        exact absurd (h.symm.trans herror) (by simp)
    · push Not at rejected
      obtain ⟨s, hs, hname, haccepts⟩ := rejected
      have hsome : (a.slots.find? (fun s => s.name = name && s.accepts r args)).isSome = true :=
        List.find?_isSome.2 ⟨s, hs, by simpa [hname] using haccepts⟩
      obtain ⟨slot, hslot⟩ := Option.isSome_iff_exists.1 hsome
      exact absurd (h.symm.trans ((dispatch_eq_ok_iff made).2 hslot)) (by simp)
  · intro h
    have hnil : a.slots.filter (·.name = name) = [] := by
      simpa [List.filter_eq_nil_iff] using h
    rw [dispatch_eq_select made, hnil]
    rfl

end AdapterType

namespace Adapter

/-- What is first on one side corresponds to what is first on the other. -/
theorem exists_find?_of_forall₂ {α β : Type} {R : α → β → Prop} {xs : List α} {ys : List β}
    {p : α → Bool} {q : β → Bool} {x : α} (h : List.Forall₂ R xs ys)
    (same : ∀ x y, R x y → p x = q y) (hx : xs.find? p = some x) :
    ∃ y, ys.find? q = some y ∧ R x y := by
  induction h with
  | nil => simp at hx
  | @cons x' y xs ys hxy _ ih =>
      cases hp : p x' with
      | true =>
          rw [List.find?_cons_of_pos hp] at hx
          obtain rfl := Option.some.inj hx
          exact ⟨y, List.find?_cons_of_pos (same _ _ hxy ▸ hp), hxy⟩
      | false =>
          rw [List.find?_cons_of_neg (by simp [hp])] at hx
          obtain ⟨y', hy', hR⟩ := ih hx
          exact ⟨y', by rw [List.find?_cons_of_neg (by simp [← same _ _ hxy, hp]), hy'], hR⟩

/-- How a call under a name with some arguments is dispatched. -/
structure Dispatches (a : Adapter) (r : Registry) (name : String) (args : List Value) : Prop where
  /-- What a call is dispatched to is all that it runs. -/
  call : a.call r name args = match a.type.dispatch r name args with
    | .ok slot => slot.binding.run slot.name a.self? args
    | .error e => throw e
  undefined : a.type.dispatch r name args = .error (.undefinedOperation name a.type.name) ↔
    ∀ s ∈ a.type.slots, s.name ≠ name
  first : ∀ slot, a.type.dispatch r name args = .ok slot ↔
    a.type.slots.find? (fun s => s.name = name && s.accepts r args) = some slot
  /-- The last slot of the name with as many parameters is the one that is complained about. -/
  wrongType : (∀ s ∈ a.type.slots, s.name = name → s.accepts r args = false) →
    (∃ s ∈ a.type.slots, s.name = name ∧ s.arity = args.length) →
      ∃ slot ty v,
        a.type.slots.reverse.find? (fun s => s.name = name && s.arity = args.length) = some slot ∧
        AdapterType.mismatch? r slot.binding.operation.params args = some (ty, v) ∧
        a.type.dispatch r name args =
          .error (.wrongArgType name (r.typeName ty) (r.valueTypeName v))
  /-- Only if no slot of the name has as many parameters, the first is complained about. -/
  wrongCount : (∃ s ∈ a.type.slots, s.name = name) →
    (∀ s ∈ a.type.slots, s.name = name → s.arity ≠ args.length) →
      ∃ slot, a.type.slots.find? (·.name = name) = some slot ∧
        a.type.dispatch r name args = .error (.wrongArgCount name slot.arity args.length)

/-- Where an adapter comes from: a registry gave a satisfied match of the type against the contract,
and the instance is of the type, if there is one. -/
structure MadeFor (a : Adapter) (r : Registry) (config : Config) (ty : ImplType)
    (spec : ContractSpec) : Prop where
  extracted : r.extract spec.contract = .ok spec
  satisfied : (r.matchSpec config ty spec).satisfied = true
  made : a.type = .synthesize a.type.id (r.matchSpec config ty spec)
  held : ∀ v, a.self? = some v → v ≠ .null ∧ v.runtimeType? = some ty

namespace MadeFor

variable {a : Adapter} {r : Registry} {config : Config} {ty : ImplType} {spec : ContractSpec}

/-- The slots are those of the contract's operations, in its order, each with what the operation is
bound to. -/
theorem slots (h : a.MadeFor r config ty spec) :
    List.Forall₂ (fun op s => r.resolve config ty op = some s.binding ∧ s.name = op.slotName ∧
      s.binding.operation = op) spec.operations a.type.slots := by
  rw [h.made, AdapterType.slots_synthesize, List.forall₂_map_right_iff]
  refine (Registry.forall₂_bindings h.satisfied).imp fun op b hb => ?_
  have hoperation := Registry.operation_of_resolve hb
  exact ⟨hb, congrArg Operation.slotName hoperation, hoperation⟩

theorem operations (h : a.MadeFor r config ty spec) :
    a.type.slots.map (·.binding.operation) = spec.operations := by
  have hoperations := h.slots.imp fun op s hs => hs.2.2.symm
  rw [← List.forall₂_map_right_iff (f := fun s : Slot => s.binding.operation),
    List.forall₂_eq_eq_eq] at hoperations
  exact hoperations.symm

/-- The slots of a name are those of the operations that are called by it. -/
theorem slot_of_mem (h : a.MadeFor r config ty spec) {s : Slot} (hs : s ∈ a.type.slots) :
    s.binding.operation ∈ spec.operations ∧ s.name = s.binding.operation.slotName := by
  refine ⟨h.operations ▸ List.mem_map_of_mem hs, ?_⟩
  rw [h.made, AdapterType.slots_synthesize] at hs
  obtain ⟨b, -, rfl⟩ := List.mem_map.1 hs
  rfl

/-- A call runs what the first operation of the name that accepts the arguments is bound to. -/
theorem call_of_find? (h : a.MadeFor r config ty spec) (now : Registry) {name : String}
    {args : List Value} {op : Operation}
    (first : spec.operations.find? (fun op => op.slotName = name && op.accepts now args) =
      some op) :
    ∃ b, r.resolve config ty op = some b ∧ a.call now name args = b.run name a.self? args := by
  have same : ∀ (op : Operation) (s : Slot), r.resolve config ty op = some s.binding ∧
      s.name = op.slotName ∧ s.binding.operation = op →
        (op.slotName = name && op.accepts now args) = (s.name = name && s.accepts now args) := by
    rintro op s ⟨-, hname, hoperation⟩
    rw [hname, Slot.accepts, hoperation]
  obtain ⟨slot, hslot, hresolve, hname, -⟩ := exists_find?_of_forall₂ h.slots same first
  have hcalled : op.slotName = name := AdapterType.name_of_find? first
  refine ⟨slot.binding, hresolve, ?_⟩
  rw [call, a.type.invoke_eq, (AdapterType.dispatch_eq_ok_iff h.made).2 hslot]
  exact congrArg (slot.binding.run · a.self? args) (hname.trans hcalled)

end MadeFor

theorem Equipped.exists_madeFor {a : Adapter} (h : a.Equipped) :
    ∃ r config ty spec, a.MadeFor r config ty spec := by
  obtain ⟨r, config, hmatch⟩ := h.found
  obtain ⟨spec, -, hextract, hresult⟩ := Provider.matches_iff.1 hmatch
  have hcontract := r.contract_of_extract hextract
  refine ⟨r, config, a.type.result.implType, spec, ?_, ?_, ?_, fun v hv => ?_⟩
  · rw [hcontract]
    exact hextract
  · rw [← hresult]
    exact h.satisfied
  · rw [← hresult]
    exact h.made
  · obtain ⟨hnull, -, hty⟩ := h.held v hv
    exact ⟨hnull, hty⟩

theorem Equipped.dispatches {a : Adapter} (h : a.Equipped) (r : Registry) (name : String)
    (args : List Value) : a.Dispatches r name args where
  call := a.type.invoke_eq r a.self? name args
  undefined := AdapterType.dispatch_eq_undefined_iff h.made
  first _ := AdapterType.dispatch_eq_ok_iff h.made
  wrongType := AdapterType.dispatch_of_counted h.made
  wrongCount := AdapterType.dispatch_of_uncounted h.made

end Adapter

namespace Workspace

variable {registry : Registry} {heap : Heap} {nextId : Nat} {past : List Event} {name : String}
  {q : Provider.Request} {a : Adapter}

theorem equipped_of_adapter
    (h : (Workspace.run { registry, heap, nextId } past).reply? name q = some (.ok (.adapter a))) :
    a.Equipped := by
  have kept : (Workspace.run { registry, heap, nextId } past).Kept :=
    kept_run (fun _ => Provider.keeps_fresh _ nextId) past
  cases hp : (Workspace.run { registry, heap, nextId } past).provider? name with
  | none => exact absurd h (by simp [reply?, hp])
  | some p =>
      rw [reply?_eq hp, Option.some.injEq] at h
      exact (Provider.equipped_of_serve (kept name) h).1

/-- **Overloads are tried in the contract's order.** Whatever happened before, an adapter that a
provider hands out has one slot for each operation of its contract, in the contract's order, and
every call through it, whatever the registry has become, runs the first slot of the name that
accepts the arguments, and nothing if there is none: the failure says if no slot has the name, else
if one of them has a parameter for each argument, else that the number is wrong. -/
theorem dispatches_of_reply
    (h : (Workspace.run { registry, heap, nextId } past).reply? name q = some (.ok (.adapter a))) :
    (∃ r config ty spec, a.MadeFor r config ty spec ∧
      a.type.slots.map (·.binding.operation) = spec.operations) ∧
      ∀ r operation args, a.Dispatches r operation args := by
  have equipped := equipped_of_adapter h
  obtain ⟨r, config, ty, spec, made⟩ := equipped.exists_madeFor
  exact ⟨⟨r, config, ty, spec, made, made.operations⟩, equipped.dispatches⟩

/-! ### A shelf -/

/-- The contract of shelves with all that it asks for. -/
def shelfSpec : ContractSpec := ⟨⟨0⟩, "Shelf", Registry.shelfOperations⟩

/-- A crate as a shelf. -/
def crateAdapter : Adapter where
  type := .synthesize 1
    (Registry.shelfRegistry.matchSpec { substituteParams := true } (.named ⟨1⟩) shelfSpec)
  self? := some (.object ⟨0, ⟨1⟩⟩)

theorem crateAdapter_madeFor :
    crateAdapter.MadeFor Registry.shelfRegistry { substituteParams := true } (.named ⟨1⟩)
      shelfSpec where
  extracted := by
    rw [Registry.extract, Registry.ancestry_of_parents_eq_nil rfl]
    decide +kernel
  satisfied := by decide +kernel
  made := rfl
  held := by
    rintro v ⟨⟩
    exact ⟨by simp, rfl⟩

theorem reply?_crate :
    (Workspace.run { registry := Registry.shelfRegistry }
      [.create "main" { substituteParams := true }]).reply? "main"
        (.convert (.object ⟨0, ⟨1⟩⟩) ⟨0⟩) = some (.ok (.adapter crateAdapter)) := by
  have hmatch : Provider.Matches Registry.shelfRegistry { substituteParams := true }
      ⟨.named ⟨1⟩, ⟨0⟩⟩ crateAdapter.type.result :=
    Provider.matches_iff.2 ⟨shelfSpec, rfl, crateAdapter_madeFor.extracted, rfl⟩
  have hfinds : Provider.Finds Registry.shelfRegistry { substituteParams := true } {}
      ⟨.named ⟨1⟩, ⟨0⟩⟩ _ crateAdapter.type :=
    .fresh _ rfl hmatch
  have hkey : (Provider.Request.convert (.object ⟨0, ⟨1⟩⟩) ⟨0⟩).key? =
      some ⟨.named ⟨1⟩, ⟨0⟩⟩ := rfl
  rw [reply?_eq rfl]
  exact congrArg some (Provider.outcome_of_finds hkey hfinds)

/-- The slot for putting text, with what it is bound to on a crate. -/
def putTextSlot : Slot where
  name := "put"
  binding := {
    operation := { name := "put", kind := .method, params := [.str], ret := .void }
    target := .method ⟨.named ⟨1⟩, 0, Registry.shelfMethod "put" [.str] .void⟩
    args := [.identity] }

/-- Text is put through the second of two overloads; for a truth value, the second is complained
about, and for no argument the first. -/
theorem dispatches_of_reply_crate :
    crateAdapter.call Registry.shelfRegistry "put" [.str "apples"] =
        putTextSlot.binding.run "put" (some (.object ⟨0, ⟨1⟩⟩)) [.str "apples"] ∧
      crateAdapter.call Registry.shelfRegistry "put" [.bool true] =
        throw (.wrongArgType "put" "str" "bool") ∧
      crateAdapter.call Registry.shelfRegistry "put" [] = throw (.wrongArgCount "put" 1 0) ∧
      crateAdapter.call Registry.shelfRegistry "take" [] =
        throw (.undefinedOperation "take" "Shelf_for_Crate#1") := by
  obtain ⟨-, hdispatches⟩ := dispatches_of_reply reply?_crate
  have htext := hdispatches Registry.shelfRegistry "put" [.str "apples"]
  have htruth := hdispatches Registry.shelfRegistry "put" [.bool true]
  have hnothing := hdispatches Registry.shelfRegistry "put" []
  have htake := hdispatches Registry.shelfRegistry "take" []
  refine ⟨?_, ?_, ?_, ?_⟩
  · rw [htext.call, (htext.first putTextSlot).2 rfl]
    rfl
  · obtain ⟨slot, ty, v, hslot, hmismatch, hdispatch⟩ :=
      htruth.wrongType (by decide +kernel) (by decide +kernel)
    obtain rfl := Option.some.inj hslot
    obtain ⟨rfl, rfl⟩ := Prod.mk.inj (Option.some.inj hmismatch)
    rw [htruth.call, hdispatch]
    rfl
  · obtain ⟨slot, hslot, hdispatch⟩ := hnothing.wrongCount (by decide +kernel) (by decide +kernel)
    obtain rfl := Option.some.inj hslot
    rw [hnothing.call, hdispatch]
    rfl
  · have hname : crateAdapter.type.name = "Shelf_for_Crate#1" := by decide +kernel
    rw [htake.call, htake.undefined.2 (by decide +kernel), hname]

end Workspace

end Contracts
