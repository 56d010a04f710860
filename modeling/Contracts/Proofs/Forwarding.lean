import Contracts.Proofs.Acceptance
import Contracts.Proofs.Extraction
import Contracts.Proofs.Requests
import Contracts.Proofs.Resolution
import Mathlib.Data.List.Forall2

set_option autoImplicit false

/-! # Calls through an adapter are well typed

A call that is accepted by the operation it is made through is well typed for the member that it is
forwarded to: what the member receives is accepted by the types that it declares, and what it
returns is accepted by the operation's result. The main result, `Provider.forwards_of_convert`, says
so of every adapter that a provider makes for an instance, for all members with a body.

How a member is called is its `Convention`, and `Forwards` says that a call follows one. Matching
leaves coercions in a binding that lead from the operation's types to the member's
(`Registry.serves_of_resolve`), and coercions keep acceptance (`Registry.accepts_of_coercion`). -/

namespace Contracts

/-! ## Calling conventions -/

/-- How a member with a body is called, and what it declares. -/
structure Convention where
  body : Body
  /-- The receiver that the body is run on, if any. -/
  receiver : Option Value
  /-- The declared types of the arguments. -/
  params : List TypeRef
  /-- The values passed as arguments, before they are brought to these types. -/
  passed : List Value
  /-- The declared type of the result. -/
  ret : TypeRef

/-- Whether the target has a body of its own. -/
def Target.isDeclared : Target → Bool
  | .method _ | .conversion _ | .operator _ | .property _ => true
  | .identity | .primitive _ => false

/-- How the target of a binding is called on an instance. Instance methods, conversions and the
accessors of properties get the instance as their receiver. Static methods and operators get none;
an operator finds the instance among its two operands, on the side that the operation says. -/
def Binding.convention? (b : Binding) (self : Value) (args : List Value) : Option Convention :=
  match b.target with
  | .method m =>
      some ⟨m.decl.body, if m.decl.isStatic then none else some self, m.decl.params, args,
        m.decl.ret⟩
  | .conversion c => some ⟨c.decl.body, some self, [], [], c.decl.target⟩
  | .operator o =>
      match args with
      | [other] =>
          let (left, right) := b.operation.side.arrange self other
          some ⟨o.decl.body, none, [o.decl.left, o.decl.right], [left, right], o.decl.ret⟩
      | _ => none
  | .property p =>
      match b.operation.kind with
      | .setter => p.setter.map fun setter => ⟨setter, some self, [p.ty], args, .void⟩
      | _ => p.getter.map fun getter => ⟨getter, some self, [], [], p.ty⟩
  | .identity | .primitive _ => none

/-- The call runs the body of the convention once, on arguments that the member's types accept, and
nothing else: what follows is a function of the result, and an error of the body is its own. -/
structure Forwards (r : Registry) (op : Operation) (c : Convention) (received : List Value)
    (finish : Value → Except EvalError Value) (call : Eval Value) : Prop where
  carried : List.Forall₂ Value.Carried c.passed received
  accepted : List.Forall₂ (fun ty w => w ≠ .null → r.accepts ty w = true) c.params received
  runs : call = c.body c.receiver received >>= fun w => Eval.ofExcept (finish w)
  raises : ∀ h e h', c.body c.receiver received h = .error e h' → call h = .error e h'
  returns : op.kind ≠ .setter → ∀ w, w ≠ .null → r.accepts c.ret w = true →
    ∃ w', finish w = .ok w' ∧ r.accepts op.ret w' = true
  written : op.kind = .setter → ∀ w, finish w = .ok .void

/-- Errors are the body's own as soon as the call runs the body and finishes. -/
theorem Forwards.of_runs {r : Registry} {op : Operation} {c : Convention} {received : List Value}
    {finish : Value → Except EvalError Value} {call : Eval Value}
    (carried : List.Forall₂ Value.Carried c.passed received)
    (accepted : List.Forall₂ (fun ty w => w ≠ .null → r.accepts ty w = true) c.params received)
    (runs : call = c.body c.receiver received >>= fun w => Eval.ofExcept (finish w))
    (returns : op.kind ≠ .setter → ∀ w, w ≠ .null → r.accepts c.ret w = true →
      ∃ w', finish w = .ok w' ∧ r.accepts op.ret w' = true)
    (written : op.kind = .setter → ∀ w, finish w = .ok .void) :
    Forwards r op c received finish call where
  carried := carried
  accepted := accepted
  runs := runs
  raises h e h' herror := by
    rw [runs]
    exact bind_of_error herror
  returns := returns
  written := written

/-! ## Arguments on their way -/

namespace Registry

variable {r : Registry}

/-- Arguments that the operation's parameters accept are brought to the member's parameters. -/
theorem exists_mapM_apply {sources targets : List TypeRef} {args : List Value}
    {coercions : List Coercion}
    (accepted : List.Forall₂ (fun ty v => r.accepts ty v = true) sources args)
    (hlength : sources.length = targets.length)
    (h : (sources.zip targets).mapM (fun (source, target) => r.coercion? source target) =
      some coercions) :
    ∃ received, (coercions.zip args).mapM (fun (c, v) => c.apply v) = .ok received ∧
      List.Forall₂ Value.Carried args received ∧
      List.Forall₂ (fun ty w => w ≠ .null → r.accepts ty w = true) targets received := by
  -- The operation's types and the arguments run out together, and the member's types with them.
  induction accepted generalizing targets coercions with
  | nil =>
      obtain rfl := List.eq_nil_of_length_eq_zero hlength.symm
      obtain rfl : coercions = [] := by simpa using h.symm
      exact ⟨[], rfl, .nil, .nil⟩
  | cons hfirst _ ih =>
      cases targets with
      | nil => exact absurd hlength (by simp)
      | cons target targets =>
          rw [List.zip_cons_cons, List.mapM_cons] at h
          obtain ⟨c, hc, hrest⟩ := Option.bind_eq_some_iff.1 h
          obtain ⟨rest, hmapM, hcons⟩ := Option.bind_eq_some_iff.1 hrest
          obtain rfl := Option.some.inj hcons
          obtain ⟨w, hw, hcarried, haccepted⟩ := accepts_of_coercion hc hfirst
          obtain ⟨received, hreceived, hall, htypes⟩ := ih (by simpa using hlength) hmapM
          refine ⟨w :: received, ?_, .cons hcarried hall, .cons haccepted htypes⟩
          simp only [List.zip_cons_cons, List.mapM_cons, hw, hreceived]
          rfl

end Registry

/-! ## The slot that is picked -/

namespace AdapterType

variable {r : Registry}

theorem accepted_of_mismatch?_eq_none {params : List TypeRef} {args : List Value}
    (hlength : params.length = args.length) (h : mismatch? r params args = none) :
    List.Forall₂ (fun ty v => r.accepts ty v = true) params args := by
  refine List.forall₂_iff_zip.2 ⟨hlength, fun {ty v} hmem => ?_⟩
  simpa using List.find?_eq_none.1 h (ty, v) hmem

/-- The slot that is selected is one of the candidates, and accepts the arguments. -/
theorem accepted_of_select {a : AdapterType} {name : String} {args : List Value}
    {candidates : List Slot} {failure : Option EvalError} {slot : Slot}
    (h : a.select r name args failure candidates = .ok slot) :
    slot ∈ candidates ∧ List.Forall₂ (fun ty v => r.accepts ty v = true)
      slot.binding.operation.params args := by
  induction candidates generalizing failure with
  | nil => exact absurd h (by simp [select])
  | cons first rest ih =>
      simp only [select] at h
      split at h
      · obtain ⟨hmem, haccepted⟩ := ih h
        exact ⟨List.mem_cons_of_mem _ hmem, haccepted⟩
      · rename_i hlength
        split at h
        · rename_i hmismatch
          obtain rfl := Except.ok.inj h
          exact ⟨List.mem_cons_self,
            accepted_of_mismatch?_eq_none (not_not.1 hlength) hmismatch⟩
        · obtain ⟨hmem, haccepted⟩ := ih h
          exact ⟨List.mem_cons_of_mem _ hmem, haccepted⟩

/-- Overload selection picks the slot for a call. -/
def Picks (a : AdapterType) (r : Registry) (name : String) (args : List Value) (slot : Slot) :
    Prop :=
  ∃ candidates, a.candidates? name = some candidates ∧
    a.select r name args none candidates = .ok slot

theorem Picks.mem {a : AdapterType} {name : String} {args : List Value} {slot : Slot}
    (h : a.Picks r name args slot) : slot ∈ a.slots := by
  obtain ⟨candidates, hcandidates, hselect⟩ := h
  obtain ⟨positions, -, rfl⟩ := Option.map_eq_some_iff.1 hcandidates
  obtain ⟨i, -, hi⟩ := List.mem_filterMap.1 (accepted_of_select hselect).1
  exact List.mem_of_getElem? hi

theorem Picks.accepted {a : AdapterType} {name : String} {args : List Value} {slot : Slot}
    (h : a.Picks r name args slot) : List.Forall₂ (fun ty v => r.accepts ty v = true)
      slot.binding.operation.params args := by
  obtain ⟨candidates, -, hselect⟩ := h
  exact (accepted_of_select hselect).2

/-- A call runs the binding of the slot that is picked. -/
theorem Picks.invoke {a : AdapterType} {name : String} {args : List Value} {slot : Slot}
    (h : a.Picks r name args slot) (self? : Option Value) :
    a.invoke r self? name args = slot.binding.run slot.name self? args := by
  obtain ⟨candidates, hcandidates, hselect⟩ := h
  simp only [AdapterType.invoke, hcandidates, hselect]
  rfl

end AdapterType

/-! ## What bindings forward -/

/-- The binding is one of the operation, and its calls on the instance follow the convention of its
target whenever the operation accepts the arguments. -/
structure Binding.Serves (r : Registry) (b : Binding) (op : Operation) (v : Value) : Prop where
  operation : b.operation = op
  forwards : ∀ name args,
    List.Forall₂ (fun ty arg => r.accepts ty arg = true) op.params args →
      ∃ c received finish, b.convention? v args = some c ∧
        Forwards r op c received finish (b.run name (some v) args)

theorem requireInstance_of_ne_null {v : Value} (hv : v ≠ .null) (name : String) :
    requireInstance (some v) name = .ok v := by
  cases v <;> first | rfl | exact absurd rfl hv

theorem Eval.ofExcept_ok {α : Type} (a : α) : Eval.ofExcept (.ok a) = pure a := rfl

namespace Registry

variable {r : Registry}

theorem returns_of_coercion {source target : TypeRef} {c : Coercion}
    (h : r.coercion? source target = some c) (w : Value) (hw : w ≠ .null)
    (accepted : r.accepts source w = true) :
    ∃ w', c.apply w = .ok w' ∧ r.accepts target w' = true := by
  obtain ⟨w', hok, hcarried, haccepted⟩ := accepts_of_coercion h accepted
  exact ⟨w', hok, haccepted (hcarried.ne_null hw)⟩

theorem returns_of_resultCoercion {source target : TypeRef} {c : Coercion}
    (h : r.resultCoercion? source target = some c) (w : Value) (hw : w ≠ .null)
    (accepted : r.accepts source w = true) :
    ∃ w', c.apply w = .ok w' ∧ r.accepts target w' = true := by
  obtain ⟨w', hok, hcarried, haccepted⟩ := accepts_of_resultCoercion h accepted
  exact ⟨w', hok, haccepted (hcarried.ne_null hw)⟩

variable {op : Operation} {b : Binding} {self : Value}

/-! ### Methods -/

theorem serves_of_bindMethod? {m : Located MethodDef} (h : r.bindMethod? op m = some b)
    (hkind : op.kind ≠ .setter) (hlength : op.params.length = m.decl.params.length)
    (hself : self ≠ .null) : b.Serves r op self := by
  obtain ⟨coercions, ret, rfl, hmapM, hret⟩ := exists_of_bindMethod? h
  refine ⟨rfl, fun name args accepted => ?_⟩
  obtain ⟨received, hreceived, hcarried, haccepted⟩ := exists_mapM_apply accepted hlength hmapM
  have runs : Binding.run { operation := op, target := .method m, args := coercions, ret } name
      (some self) args = (m.decl.body (if m.decl.isStatic then none else some self) received >>=
        fun w => Eval.ofExcept (ret.apply w)) := by
    simp only [Binding.run, Binding.coercedArgs, hreceived, requireInstance_of_ne_null hself,
      Eval.ofExcept_ok, pure_bind]
    split <;> rfl
  exact ⟨_, received, fun w => ret.apply w, rfl, .of_runs hcarried haccepted runs
    (fun _ => returns_of_resultCoercion hret) fun h => absurd h hkind⟩

theorem serves_of_resolveMethod {config : Config} {ty : ImplType} {filter : MethodFilter}
    (h : r.resolveMethod config ty op filter = some b) (hkind : op.kind ≠ .setter)
    (hself : self ≠ .null) : b.Serves r op self := by
  obtain ⟨m, -, hunifies, hb⟩ := exists_of_resolveMethod h
  exact serves_of_bindMethod? hb hkind (unifies_eq_true_iff.1 hunifies).1 hself

/-! ### Conversions -/

theorem serves_of_resolveConversion {config : Config} {ty : ImplType} {kind : ConversionKind}
    (h : r.resolveConversion config ty op kind = some b) (hkind : op.kind = .conversion kind)
    (hdeclared : b.target.isDeclared = true) (hself : self ≠ .null) : b.Serves r op self := by
  obtain ⟨target, rfl, ⟨c, rfl, htarget⟩ | ⟨p, rfl⟩ | rfl⟩ := exists_of_resolveConversion h
  · refine ⟨rfl, fun name args _ => ?_⟩
    have runs : Binding.run { operation := op, target := .conversion c } name (some self) args =
        (c.decl.body (some self) [] >>= fun w => Eval.ofExcept (.ok w)) := by
      simp only [Binding.run, requireInstance_of_ne_null hself, Eval.ofExcept_ok, pure_bind,
        Coercion.apply]
    exact ⟨_, [], .ok, rfl, .of_runs .nil .nil runs
      (fun _ w _ haccepted => ⟨w, rfl, htarget ▸ haccepted⟩)
      fun h => absurd (hkind.symm.trans h) (by simp)⟩
  -- The primitive conversion and the value itself run no body.
  · exact absurd hdeclared (by simp [Target.isDeclared])
  · exact absurd hdeclared (by simp [Target.isDeclared])

/-! ### Operators -/

/-- Both operands are brought to the operator's, each on its side. -/
theorem serves_of_bindOperator? {symbol : BinaryOp} {side : Side} {other : TypeRef} {ty : ImplType}
    {o : Located OperatorDef}
    (h : r.bindOperator? op side ty.toRef other (.operator o) o.decl.left o.decl.right o.decl.ret =
      some b)
    (hkind : op.kind = .operator symbol side) (hparams : op.params = [other])
    (hself : self ≠ .null) (instanceAccepted : r.accepts ty.toRef self = true) :
    b.Serves r op self := by
  obtain ⟨receiver, arg, ret, rfl, hreceiver, harg, hret⟩ := exists_of_bindOperator? h
  refine ⟨rfl, fun name args accepted => ?_⟩
  rw [hparams] at accepted
  cases accepted with
  | @cons _ v _ _ hv hnil =>
      cases hnil
      obtain ⟨x, hx, hxcarried, hxaccepted⟩ := accepts_of_coercion hreceiver instanceAccepted
      obtain ⟨y, hy, hycarried, hyaccepted⟩ := accepts_of_coercion harg hv
      have hside : op.side = side := by simp [Operation.side, hkind]
      have runs : Binding.run
          { operation := op, target := .operator o, receiver, args := [arg], ret } name (some self)
            [v] = (o.decl.body none [(side.arrange x y).1, (side.arrange x y).2] >>= fun w =>
              Eval.ofExcept (ret.apply w)) := by
        simp only [Binding.run, hside, requireInstance_of_ne_null hself, hx, hy,
          Binding.coercedArg, List.headD_cons, Eval.ofExcept_ok, pure_bind]
      have hconvention : Binding.convention?
          { operation := op, target := .operator o, receiver, args := [arg], ret } self [v] =
            some ⟨o.decl.body, none, [o.decl.left, o.decl.right],
              [(side.arrange self v).1, (side.arrange self v).2], o.decl.ret⟩ := by
        simp only [Binding.convention?, hside]
      refine ⟨_, _, fun w => ret.apply w, hconvention, .of_runs ?_ ?_ runs
        (fun _ => returns_of_resultCoercion hret) fun h => absurd (hkind.symm.trans h) (by simp)⟩
      -- The operands arrive in the operator's order, whichever of them is the instance.
      · cases side with
        | left => exact .cons hxcarried (.cons hycarried .nil)
        | right => exact .cons hycarried (.cons hxcarried .nil)
      · cases side with
        | left => exact .cons hxaccepted (.cons hyaccepted .nil)
        | right => exact .cons hyaccepted (.cons hxaccepted .nil)

theorem serves_of_resolveOperator {config : Config} {symbol : BinaryOp} {side : Side}
    {ty : ImplType} (h : r.resolveOperator config ty op symbol side = some b)
    (hkind : op.kind = .operator symbol side) (inShape : op.fault? = none)
    (hdeclared : b.target.isDeclared = true) (hself : self ≠ .null)
    (instanceAccepted : r.accepts ty.toRef self = true) : b.Serves r op self := by
  obtain ⟨other, hparams⟩ := Operation.params_of_operator inShape hkind
  obtain ⟨other', hother, hb⟩ := exists_of_resolveOperator h
  obtain rfl : other = other' := by simpa [hparams] using hother
  rcases hb with ⟨o, hb⟩ | ⟨p, left, right, result, hb⟩
  · exact serves_of_bindOperator? hb hkind hparams hself instanceAccepted
  · obtain ⟨receiver, arg, ret, rfl, -⟩ := exists_of_bindOperator? hb
    exact absurd hdeclared (by simp [Target.isDeclared])

/-! ### Properties -/

theorem serves_of_resolveGetter {ty : ImplType} (h : r.resolveGetter ty op = some b)
    (hkind : op.kind = .getter) (hself : self ≠ .null) : b.Serves r op self := by
  obtain ⟨p, getter, ret, rfl, -, hgetter, hret⟩ := exists_of_resolveGetter h
  refine ⟨rfl, fun name args _ => ?_⟩
  have runs : Binding.run { operation := op, target := .property p, ret } name (some self) args =
      (getter (some self) [] >>= fun w => Eval.ofExcept (ret.apply w)) := by
    simp only [Binding.run, hkind, hgetter, requireInstance_of_ne_null hself, Eval.ofExcept_ok,
      pure_bind]
  have hconvention : Binding.convention? { operation := op, target := .property p, ret } self
      args = some ⟨getter, some self, [], [], p.ty⟩ := by
    simp [Binding.convention?, hkind, hgetter]
  exact ⟨_, [], fun w => ret.apply w, hconvention, .of_runs .nil .nil runs
    (fun _ => returns_of_coercion hret) fun h => absurd (hkind.symm.trans h) (by simp)⟩

theorem serves_of_resolveSetter {ty : ImplType} (h : r.resolveSetter ty op = some b)
    (hkind : op.kind = .setter) (inShape : op.fault? = none) (hself : self ≠ .null) :
    b.Serves r op self := by
  obtain ⟨param, hparams⟩ := Operation.params_of_setter inShape hkind
  obtain ⟨p, setter, param', arg, rfl, hsetter, hparam, harg⟩ := exists_of_resolveSetter h
  obtain rfl : param = param' := by simpa [hparams] using hparam
  refine ⟨rfl, fun name args accepted => ?_⟩
  rw [hparams] at accepted
  cases accepted with
  | @cons _ v _ _ hv hnil =>
      cases hnil
      obtain ⟨w, hw, hcarried, haccepted⟩ := accepts_of_coercion harg hv
      have runs : Binding.run { operation := op, target := .property p, args := [arg] } name
          (some self) [v] = (setter (some self) [w] >>= fun _ => Eval.ofExcept (.ok .void)) := by
        simp only [Binding.run, hkind, hsetter, requireInstance_of_ne_null hself,
          Eval.ofExcept_ok, pure_bind, Binding.coercedArg, List.headD_cons, hw]
      have hconvention : Binding.convention?
          { operation := op, target := .property p, args := [arg] } self [v] =
            some ⟨setter, some self, [p.ty], [v], .void⟩ := by
        simp [Binding.convention?, hkind, hsetter]
      exact ⟨_, [w], fun _ => .ok .void, hconvention, .of_runs (.cons hcarried .nil)
        (.cons haccepted .nil) runs (fun h => absurd hkind h) fun _ _ => rfl⟩

/-! ### All operations -/

/-- Whatever declared member an operation in shape is bound to on a type, the binding serves the
operation on every instance of the type. -/
theorem serves_of_resolve {config : Config} {ty : ImplType}
    (h : r.resolve config ty op = some b) (inShape : op.fault? = none)
    (hdeclared : b.target.isDeclared = true) (hself : self.runtimeType? = some ty) :
    b.Serves r op self := by
  have hnull : self ≠ .null := by
    rintro rfl
    exact absurd hself (by simp [Value.runtimeType?])
  have haccepted := accepts_runtimeType (r := r) hself
  unfold resolve at h
  cases hkind : op.kind with
  | method =>
      rw [hkind] at h
      exact serves_of_resolveMethod h (by simp [hkind]) hnull
  | staticMethod =>
      rw [hkind] at h
      exact serves_of_resolveMethod h (by simp [hkind]) hnull
  | conversion kind =>
      rw [hkind] at h
      exact serves_of_resolveConversion h hkind hdeclared hnull
  | operator symbol side =>
      rw [hkind] at h
      exact serves_of_resolveOperator h hkind inShape hdeclared hnull haccepted
  | getter =>
      rw [hkind] at h
      exact serves_of_resolveGetter h hkind hnull
  | setter =>
      rw [hkind] at h
      exact serves_of_resolveSetter h hkind inShape hnull

end Registry

/-! ## Calls through adapters -/

/-- Every slot of the adapter type of a match binds an operation of the contract. -/
theorem Registry.exists_of_mem_slots {r : Registry} {config : Config} {ty : ImplType}
    {spec : ContractSpec} {n : Nat} {slot : Slot}
    (h : slot ∈ (AdapterType.synthesize n (r.matchSpec config ty spec)).slots) :
    ∃ op ∈ spec.operations, r.resolve config ty op = some slot.binding := by
  obtain ⟨b, hb, rfl⟩ := List.mem_map.1 h
  exact List.mem_filterMap.1 hb

namespace Provider

variable {r : Registry} {config : Config}

/-- **Calls are well typed.** A value whose type satisfies a contract is converted to it, whatever
was asked of the provider before, and as long as the registry does not change every call through the
adapter that picks a slot of a declared member is forwarded as the member's convention says. -/
theorem forwards_of_convert {s : State} (reached : Reached r config s) {v : Value} {ty : ImplType}
    {contract : TypeIdx} {result : MatchResult} (hv : v.runtimeType? = some ty)
    (matched : computeMatch r config ty contract = .ok result)
    (satisfied : result.satisfied = true) :
    ∃ n, outcome (convert r config v contract) s = .ok ⟨.synthesize n result, some v⟩ ∧
      ∀ name args slot, (AdapterType.synthesize n result).Picks r name args slot →
        slot.binding.target.isDeclared = true →
          ∃ c received finish, slot.binding.convention? v args = some c ∧
            Forwards r slot.binding.operation c received finish
              (Adapter.call ⟨.synthesize n result, some v⟩ r name args) := by
  have keeps := reached.keeps
  rcases finds_or_error keeps ⟨ty, contract⟩ with ⟨result', a, hfinds⟩ | ⟨-, e, herror⟩
  · obtain ⟨hmatch, ha⟩ := matches_of_finds keeps hfinds
    obtain rfl := Except.ok.inj (matched.symm.trans hmatch)
    refine ⟨a.id, ?_, fun name args slot hpicks hdeclared => ?_⟩
    · rw [convert_of_finds hv hfinds, if_pos satisfied, ← ha]
    · unfold computeMatch at matched
      split at matched
      · exact absurd matched (by simp)
      · split at matched
        · exact absurd matched (by simp)
        · rename_i spec hextract
          obtain rfl := Except.ok.inj matched
          -- The slot binds an operation of the contract, as the match found it.
          obtain ⟨op, hop, hresolve⟩ := r.exists_of_mem_slots hpicks.mem
          have inShape := r.fault?_of_extract hextract op hop
          have hserves := r.serves_of_resolve hresolve inShape hdeclared hv
          have haccepted := hpicks.accepted
          rw [Adapter.call, hpicks.invoke]
          rw [hserves.operation] at haccepted ⊢
          exact hserves.forwards slot.name args haccepted
  · exact absurd (matched.symm.trans herror) (by simp)

/-! ### An operand that widens, with the instance on the right -/

/-- Subtraction of an instance from a 32-bit number. -/
def offsetOperation : Operation where
  name := "offset"
  kind := .operator .sub .right
  params := [.builtin (.int .i32)]
  ret := .object

/-- Subtraction of a point from a 64-bit number. -/
def offsetOperator : OperatorDef where
  op := .sub
  left := .builtin (.int .i64)
  right := .named ⟨1⟩
  ret := .named ⟨1⟩
  body := fun _ args => pure (args.getLastD .null)

/-- A contract that asks for the operation, and a struct with the operator. -/
def offsetRegistry : Registry where
  types := #[
    ⟨"Offsettable", true, .contract { operations := [offsetOperation] }⟩,
    ⟨"Point", true, .implementation true { members := { operators := [offsetOperator] } }⟩]

/-- What the operation is bound to on the struct. -/
def offsetBinding : Binding where
  operation := offsetOperation
  target := .operator ⟨.named ⟨1⟩, 0, offsetOperator⟩
  args := [.widen (.int .i32) (.int .i64)]
  ret := .box

theorem forwards_offset : ∃ n result received finish,
    outcome (convert offsetRegistry {} (.object ⟨0, ⟨1⟩⟩) ⟨0⟩)
        (endState (serve offsetRegistry {} (.check (.named ⟨1⟩) ⟨0⟩)) { nextId := 1 }) =
      .ok ⟨.synthesize n result, some (.object ⟨0, ⟨1⟩⟩)⟩ ∧
    Forwards offsetRegistry offsetOperation
      ⟨offsetOperator.body, none, [.builtin (.int .i64), .named ⟨1⟩],
        [IntType.i32.wrap 7, .object ⟨0, ⟨1⟩⟩], .named ⟨1⟩⟩ received finish
      (Adapter.call ⟨.synthesize n result, some (.object ⟨0, ⟨1⟩⟩)⟩ offsetRegistry "offset"
        [IntType.i32.wrap 7]) := by
  have hextract : offsetRegistry.extract ⟨0⟩ = .ok ⟨⟨0⟩, "Offsettable", [offsetOperation]⟩ := by
    rw [Registry.extract, Registry.ancestry_of_parents_eq_nil rfl]
    rfl
  have hmatched : computeMatch offsetRegistry {} (.named ⟨1⟩) ⟨0⟩ = .ok (offsetRegistry.matchSpec {}
      (.named ⟨1⟩) ⟨⟨0⟩, "Offsettable", [offsetOperation]⟩) := by
    rw [computeMatch, hextract]
    rfl
  obtain ⟨n, hconvert, hforwards⟩ := forwards_of_convert (.serve (.fresh 1) (.check _ _))
    (v := .object ⟨0, ⟨1⟩⟩) rfl hmatched rfl
  have hpicks : (AdapterType.synthesize n (offsetRegistry.matchSpec {} (.named ⟨1⟩)
      ⟨⟨0⟩, "Offsettable", [offsetOperation]⟩)).Picks offsetRegistry "offset"
        [IntType.i32.wrap 7] ⟨"offset", offsetBinding⟩ :=
    ⟨[⟨"offset", offsetBinding⟩], rfl, rfl⟩
  obtain ⟨c, received, finish, hconvention, h⟩ := hforwards _ _ _ hpicks rfl
  obtain rfl := Option.some.inj hconvention
  exact ⟨n, _, received, finish, hconvert, h⟩

end Provider

end Contracts
