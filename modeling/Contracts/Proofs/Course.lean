import Contracts.Proofs.Agreement

set_option autoImplicit false

/-! # The course of a call

Which lookups a provider makes depends on what the earlier ones give. A `Course` spells that out: it
is a tree of the steps that a call takes, each followed by what is done with its result. Every entry
point is the run of its course (`Course.run_ofRequest`, `Course.run_canConvertTo`,
`Course.run_convertTo`), so the lookups that succeed along the course (`Course.lookups`) are those
that the call makes. -/

namespace Contracts

/-! ## Steps and courses -/

/-- One step of a call, by the type of its result. -/
inductive Step : Type → Type 1
  | lookup (key : CacheKey) : Step CacheEntry
  | synthesize (key : CacheKey) (result : MatchResult) : Step AdapterType
  | clear : Step Unit
  /-- Anything that leaves the provider alone. -/
  | aside {β : Type} (action : World.Action β)
      (frame : ∀ w, (endState action w).provider = w.provider) : Step β

/-- What the step does. -/
def Step.run {β : Type} (config : Config) : Step β → World.Action β
  | .lookup key => World.ask fun r => Provider.lookup r config key.implType key.contract
  | .synthesize key result => World.ask fun _ => Provider.synthesize key result
  | .clear => World.ask fun _ => Provider.clearCache
  | .aside action _ => action

/-- The lookups in a step that has given a result. -/
def Step.lookups {β : Type} : Step β → β → List (CacheKey × CacheEntry)
  | .lookup key, entry => [(key, entry)]
  | .synthesize _ _, _ | .clear, _ | .aside _ _, _ => []

/-- The steps of a call, as they depend on the results of earlier ones. -/
inductive Course (α : Type) : Type 1
  | done (a : α)
  | fail (e : ContractError)
  | step {β : Type} (first : Step β) (next : β → Course α)

namespace Course

variable {α β : Type}

/-- The call that takes the course. -/
def run (config : Config) : Course α → World.Action α
  | done a => pure a
  | fail e => throw e
  | step first next => do (next (← first.run config)).run config

/-- The lookups along the course that succeed, with the entries that they give. -/
def lookups (config : Config) : Course α → World → List (CacheKey × CacheEntry)
  | done _, _ | fail _, _ => []
  | step first next, w =>
      match first.run config w with
      | .ok b w' => first.lookups b ++ (next b).lookups config w'
      | .error _ _ => []

/-- One course after the other. -/
def andThen (c : Course α) (f : α → Course β) : Course β :=
  match c with
  | done a => f a
  | fail e => fail e
  | step first next => step first fun b => (next b).andThen f

theorem run_andThen (config : Config) (c : Course α) (f : α → Course β) :
    (c.andThen f).run config = c.run config >>= fun a => (f a).run config := by
  induction c with
  | done a => rfl
  | fail e => rfl
  | step first next ih =>
      funext w
      simp only [andThen, run, ih]
      cases h : first.run config w <;> simp only [bind, EStateM.bind, h]

/-! ## Entry points -/

/-- The course of `Provider.check`. -/
def check (key : CacheKey) : Course Bool :=
  .step (.lookup key) fun
    | .adapter _ => .done true
    | .matched result => .done result.satisfied

/-- The course of `Provider.satisfies`. -/
def satisfies (v : Value) (contract : TypeIdx) : Course Bool :=
  match v.runtimeType? with
  | some ty => check ⟨ty, contract⟩
  | none => .done false

/-- The course of `Provider.explain`. -/
def explain (key : CacheKey) : Course MatchResult :=
  .step (.lookup key) fun entry => .done entry.result

/-- The course of `Provider.adapterType`. -/
def adapterType (key : CacheKey) : Course AdapterType :=
  .step (.lookup key) fun
    | .adapter a => .done a
    | .matched result =>
        if result.satisfied then .step (.synthesize key result) .done
        else .fail (.unsatisfied result.typeName result.contractName result.issues)

/-- The course of `Provider.convert`. -/
def convert (v : Value) (contract : TypeIdx) : Course Adapter :=
  match v.runtimeType? with
  | none => .fail (.noRuntimeType v)
  | some ty => (adapterType ⟨ty, contract⟩).andThen fun a => .done ⟨a, some v⟩

/-- The course of `Provider.convertStatic`. -/
def convertStatic (key : CacheKey) : Course Adapter :=
  .step (.lookup key) fun entry =>
    if !entry.result.staticOnly then .fail (.instanceRequired entry.result.contractName)
    else (adapterType key).andThen fun a => .done ⟨a, none⟩

/-- The course of `Provider.serve`. -/
def ofRequest : Provider.Request → Course Provider.Reply
  | .check ty contract => (check ⟨ty, contract⟩).andThen fun b => .done (.truth b)
  | .satisfies v contract => (satisfies v contract).andThen fun b => .done (.truth b)
  | .explain ty contract => (explain ⟨ty, contract⟩).andThen fun result => .done (.matched result)
  | .convert v contract => (convert v contract).andThen fun a => .done (.adapter a)
  | .convertStatic ty contract =>
      (convertStatic ⟨ty, contract⟩).andThen fun a => .done (.adapter a)
  | .adapterType ty contract =>
      (adapterType ⟨ty, contract⟩).andThen fun a => .done (.adapterType a)
  | .clearCache => .step .clear fun _ => .done .done

/-- Go on with the contracts of `World.conversionContracts`. -/
def withContracts (target : TypeRef) (next : TypeIdx × TypeIdx → Course α) : Course α :=
  .step (.aside (World.conversionContracts target)
    fun w => (World.endState_conversionContracts target w).2) next

/-- The course of `World.canConvertTo`. -/
def canConvertTo (v : Value) (target : TypeRef) : Course Bool :=
  withContracts target fun contracts =>
    (satisfies v contracts.1).andThen fun explicit =>
      if explicit then .done true else satisfies v contracts.2

theorem provider_endState_get (w : World) :
    (endState (get : World.Action World) w).provider = w.provider := rfl

theorem provider_endState_eval (run : Registry → Eval α) (w : World) :
    (endState (World.eval run) w).provider = w.provider := by
  cases h : run w.registry w.heap <;> simp only [endState, World.eval, h]

/-- The course of `World.convertThrough`. -/
def convertThrough (v : Value) (contract : TypeIdx) (operation : String) : Course Value :=
  (convert v contract).andThen fun a =>
    .step (.aside (World.eval fun r => a.call r operation []) (provider_endState_eval _)) .done

/-- The course of `World.convertTo`. -/
def convertTo (v : Value) (target : TypeRef) : Course Value :=
  withContracts target fun contracts =>
    (satisfies v contracts.1).andThen fun explicit =>
      if explicit then convertThrough v contracts.1 "cast"
      else (satisfies v contracts.2).andThen fun implicit =>
        if implicit then convertThrough v contracts.2 "convert"
        else if v.runtimeType?.isNone then .fail (.noRuntimeType v)
        else .step (.aside get provider_endState_get) fun w =>
          .fail (.noConversion (w.registry.valueTypeName v) (w.registry.typeName target))

/-! ## Entry points as runs of their courses -/

variable (config : Config)

theorem run_check (key : CacheKey) : (check key).run config =
    World.ask fun r => Provider.check r config key.implType key.contract := by
  unfold Provider.check
  rw [World.ask_bind]
  refine congrArg _ (funext fun entry => ?_)
  cases entry <;> rfl

theorem run_satisfies (v : Value) (contract : TypeIdx) : (satisfies v contract).run config =
    World.ask fun r => Provider.satisfies r config v contract := by
  unfold Provider.satisfies satisfies
  cases v.runtimeType? with
  | some ty => exact run_check config ⟨ty, contract⟩
  | none => rfl

theorem run_explain (key : CacheKey) : (explain key).run config =
    World.ask fun r => Provider.explain r config key.implType key.contract := by
  unfold Provider.explain
  rw [World.ask_bind]
  rfl

theorem run_adapterType (key : CacheKey) : (adapterType key).run config =
    World.ask fun r => Provider.adapterType r config key.implType key.contract := by
  unfold Provider.adapterType
  rw [World.ask_bind]
  refine congrArg _ (funext fun entry => ?_)
  cases entry with
  | adapter a => rfl
  | matched result =>
      cases h : result.satisfied with
      | false =>
          simp only [h, Bool.false_eq_true, if_false]
          rfl
      | true =>
          simp only [h, if_true]
          rfl

theorem run_convert (v : Value) (contract : TypeIdx) : (convert v contract).run config =
    World.ask fun r => Provider.convert r config v contract := by
  unfold Provider.convert convert
  cases v.runtimeType? with
  | none => rfl
  | some ty =>
      dsimp only
      rw [run_andThen, run_adapterType, World.ask_bind]
      rfl

theorem run_convertStatic (key : CacheKey) : (convertStatic key).run config =
    World.ask fun r => Provider.convertStatic r config key.implType key.contract := by
  unfold Provider.convertStatic
  rw [World.ask_bind]
  refine congrArg _ (funext fun entry => ?_)
  dsimp only
  split
  · rfl
  · rw [run_andThen, run_adapterType, World.ask_bind]
    rfl

/-- Serving a request takes the course of the request. -/
theorem run_ofRequest (q : Provider.Request) : (ofRequest q).run config =
    World.ask fun r => Provider.serve r config q := by
  cases q with
  | check ty contract =>
      simp only [ofRequest, Provider.serve, run_andThen, run_check, World.ask_bind]
      rfl
  | satisfies v contract =>
      simp only [ofRequest, Provider.serve, run_andThen, run_satisfies, World.ask_bind]
      rfl
  | explain ty contract =>
      simp only [ofRequest, Provider.serve, run_andThen, run_explain, World.ask_bind]
      rfl
  | convert v contract =>
      simp only [ofRequest, Provider.serve, run_andThen, run_convert, World.ask_bind]
      rfl
  | convertStatic ty contract =>
      simp only [ofRequest, Provider.serve, run_andThen, run_convertStatic, World.ask_bind]
      rfl
  | adapterType ty contract =>
      simp only [ofRequest, Provider.serve, run_andThen, run_adapterType, World.ask_bind]
      rfl
  | clearCache => rfl

theorem run_canConvertTo (v : Value) (target : TypeRef) :
    (canConvertTo v target).run config = World.canConvertTo config v target := by
  refine congrArg _ (funext fun contracts => ?_)
  rw [run_andThen, run_satisfies]
  refine congrArg _ (funext fun explicit => ?_)
  cases explicit with
  | true => rfl
  | false => exact run_satisfies config v contracts.2

theorem run_convertThrough (v : Value) (contract : TypeIdx) (operation : String) :
    (convertThrough v contract operation).run config =
      World.convertThrough config v contract operation := by
  rw [convertThrough, run_andThen, run_convert]
  refine congrArg _ (funext fun a => funext fun w => ?_)
  cases h : World.eval (fun r => a.call r operation []) w with
  | ok v' w' => exact bind_of_ok h
  | error e w' => exact bind_of_error h

theorem run_convertTo (v : Value) (target : TypeRef) :
    (convertTo v target).run config = World.convertTo config v target := by
  refine congrArg _ (funext fun contracts => ?_)
  rw [run_andThen, run_satisfies]
  refine congrArg _ (funext fun explicit => ?_)
  cases explicit with
  | true => exact run_convertThrough config v contracts.1 "cast"
  | false =>
      simp only [Bool.false_eq_true, if_false]
      rw [run_andThen, run_satisfies]
      refine congrArg _ (funext fun implicit => ?_)
      cases implicit with
      | true => exact run_convertThrough config v contracts.2 "convert"
      | false => cases v.runtimeType? <;> rfl

end Course

end Contracts
