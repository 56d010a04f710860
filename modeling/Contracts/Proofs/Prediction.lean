import Contracts.Proofs.Agreement
import Contracts.Proofs.DynamicConversion
import Contracts.Proofs.NameKeeping

set_option autoImplicit false

/-! # Asking before converting

Whether a value converts to a type can be asked before it is converted. From one state, asking and
converting go the same way: both fail with what keeps the contracts of conversion from being had or
matched, or the answer is no and the conversion says why, or the answer is yes and all that is left
to the conversion is to call the operation that it has found (`World.Course`).

Both declare the contracts of conversion if they are not there, so they change the registry; but
what the first of them has come to is settled, and none that follows changes the registry any more
(`Workspace.foresees_conversion`). There is one exception: a position at which no type is declared
has a name in messages, but can become that of a declared type, and then the contracts of conversion
to it go by another name (`Workspace.redeclares_conversion`). -/

namespace Contracts

/-! ## A value that is found to satisfy a contract -/

namespace Provider

variable {r : Registry} {config : Config} {s s' : State} {ty : ImplType} {v : Value}
  {contract : TypeIdx}

theorem lookup_of_stored {entry : CacheEntry} (h : s.stored? ⟨ty, contract⟩ = some entry) :
    lookup r config ty contract s = .ok entry s.hit := by
  rcases lookup_cases r config ty contract s with
    ⟨found, hfound, hok⟩ | ⟨hnone, -⟩ | ⟨hnone, -⟩
  · obtain rfl := Option.some.inj (h.symm.trans hfound)
    exact hok
  · exact absurd (hnone.symm.trans h) (by simp)
  · exact absurd (hnone.symm.trans h) (by simp)

theorem satisfies_of_runtimeType? (hv : v.runtimeType? = some ty) :
    satisfies r config v contract = check r config ty contract := by
  rw [satisfies, hv]

/-- A value that has been found to satisfy a contract can be seen through it, whatever the registry
has become since the match. -/
theorem exists_convert_of_satisfies (h : satisfies r config v contract s = .ok true s') :
    ∃ a, outcome (convert r config v contract) s' = .ok a := by
  cases hv : v.runtimeType? with
  | none =>
      have hfalse : satisfies r config v contract s = .ok false s := by
        rw [satisfies, hv]
        rfl
      rw [hfalse] at h
      exact absurd (EStateM.Result.ok.inj h).1 (by simp)
  | some ty =>
      rw [satisfies_of_runtimeType? hv] at h
      obtain ⟨entry, s₁, hlookup, hanswer⟩ := ok_of_bind h
      have hstored := (move_of_lookup_ok r config ty contract s hlookup).2
      have hadapter : ∃ a, outcome (adapterType r config ty contract) s₁ = .ok a := by
        rw [outcome, adapterType_eq, lookup_of_stored hstored]
        cases entry with
        | adapter a => exact ⟨a, rfl⟩
        | matched result =>
            have hsatisfied : result.satisfied = true := (EStateM.Result.ok.inj hanswer).1
            exact ⟨s₁.hit.nextAdapter result, by simp [hsatisfied]⟩
      have hstate : s₁ = s' := by
        cases entry with
        | adapter a => exact (EStateM.Result.ok.inj hanswer).2
        | matched result => exact (EStateM.Result.ok.inj hanswer).2
      obtain ⟨a, ha⟩ := hadapter
      rw [hstate] at ha
      refine ⟨⟨a, some v⟩, ?_⟩
      rw [convert, hv]
      exact (outcome_map (fun a => (⟨a, some v⟩ : Adapter)) s').trans (by rw [ha]; rfl)

/-- What keeps a value from being matched is the shape of its type or of the contract. -/
theorem shape_of_satisfies {e : ContractError}
    (h : satisfies r config v contract s = .error e s') : ∃ x, e = .shape x := by
  cases hv : v.runtimeType? with
  | none =>
      rw [satisfies, hv] at h
      exact absurd h (by simp [pure, EStateM.pure])
  | some ty =>
      rw [satisfies_of_runtimeType? hv] at h
      rcases error_of_bind h with hlookup | ⟨entry, s₁, -, hanswer⟩
      · rcases lookup_cases r config ty contract s with
          ⟨found, -, hok⟩ | ⟨-, result, -, hok⟩ | ⟨-, e', hmatch, herror⟩
        · exact absurd (hlookup.symm.trans hok) (by simp)
        · exact absurd (hlookup.symm.trans hok) (by simp)
        · obtain ⟨rfl, -⟩ := EStateM.Result.error.inj (hlookup.symm.trans herror)
          unfold computeMatch at hmatch
          split at hmatch
          · exact ⟨_, (Except.error.inj hmatch).symm⟩
          · split at hmatch
            · exact ⟨_, (Except.error.inj hmatch).symm⟩
            · exact absurd hmatch (by simp)
      · cases entry <;> exact absurd hanswer (by simp [pure, EStateM.pure])

end Provider

/-! ## The course of asking and of converting -/

/-- The error says why there are no contracts of conversion, or why they cannot be matched. -/
inductive ContractError.Preliminary : ContractError → Prop
  | registry (e : RegistryError) : Preliminary (.registry e)
  | shape (e : ShapeError) : Preliminary (.shape e)

/-- The error says that the value has no conversion to the type. -/
inductive ContractError.Refuses (v : Value) : ContractError → Prop
  | noRuntimeType : Refuses v (.noRuntimeType v)
  | noConversion (source target : String) : Refuses v (.noConversion source target)

namespace World

variable {config : Config} {v : Value} {target : TypeRef} {e i : TypeIdx} {w w₁ w₂ w₃ : World}

/-- The call that is left to the conversion of a value: that of the one operation of a contract of
conversion to the type, on an adapter of the value. -/
inductive Forwards (config : Config) (v : Value) (target : TypeRef) (w : World) :
    Eval Value → Prop
  | explicit {e i : TypeIdx} {w₁ : World} {s : Provider.State} {call : Eval Value}
      (contracts : conversionContracts target w = .ok (e, i) w₁)
      (callIs : Provider.CallIs w₁.registry config s v e (.ofConversion "cast" .explicit target) []
        call) : Forwards config v target w call
  | implicit {e i : TypeIdx} {w₁ : World} {s : Provider.State} {call : Eval Value}
      (contracts : conversionContracts target w = .ok (e, i) w₁)
      (callIs : Provider.CallIs w₁.registry config s v i
        (.ofConversion "convert" .implicit target) [] call) : Forwards config v target w call

/-- How asking whether a value converts to a type, and converting it, come out from one state. -/
inductive Course (config : Config) (v : Value) (target : TypeRef) (w : World) : Prop
  | fails {e : ContractError} (cause : e.Preliminary)
      (asked : outcome (canConvertTo config v target) w = .error e)
      (converted : outcome (convertTo config v target) w = .error e)
  | refuses {e : ContractError} (cause : e.Refuses v)
      (asked : outcome (canConvertTo config v target) w = .ok false)
      (converted : outcome (convertTo config v target) w = .error e)
  | calls {call : Eval Value} (forwards : Forwards config v target w call)
      (asked : outcome (canConvertTo config v target) w = .ok true)
      (converted : Runs (convertTo config v target) w call)

theorem canConvertTo_of_explicit (contracts : conversionContracts target w = .ok (e, i) w₁)
    (explicit : ask (fun r => Provider.satisfies r config v e) w₁ = .ok true w₂) :
    canConvertTo config v target w = .ok true w₂ := by
  rw [canConvertTo, bind_of_ok contracts]
  exact bind_of_ok explicit

theorem canConvertTo_of_not_explicit (contracts : conversionContracts target w = .ok (e, i) w₁)
    (explicit : ask (fun r => Provider.satisfies r config v e) w₁ = .ok false w₂) :
    canConvertTo config v target w =
      ask (fun r => Provider.satisfies r config v i) w₂ := by
  rw [canConvertTo, bind_of_ok contracts]
  exact bind_of_ok explicit

/-- If neither contract is satisfied, the conversion says so. -/
theorem refuses_of_neither (contracts : conversionContracts target w = .ok (e, i) w₁)
    (explicit : ask (fun r => Provider.satisfies r config v e) w₁ = .ok false w₂)
    (implicit : ask (fun r => Provider.satisfies r config v i) w₂ = .ok false w₃) :
    ∃ x : ContractError, x.Refuses v ∧ outcome (convertTo config v target) w = .error x := by
  cases hv : v.runtimeType? with
  | some ty =>
      have herror := convertTo_of_neither contracts explicit implicit hv
      exact ⟨_, .noConversion _ _, by rw [outcome, herror]⟩
  | none =>
      have herror : convertTo config v target w = .error (.noRuntimeType v) w₃ := by
        rw [convertTo, bind_of_ok contracts]
        refine ((bind_of_ok explicit).trans (bind_of_ok implicit)).trans ?_
        simp only [hv, Option.isNone_none, if_true]
        rfl
      exact ⟨_, .noRuntimeType, by rw [outcome, herror]⟩

theorem provider_of_ask {α : Type} {call : Registry → Provider.Call α} {a : α}
    (h : ask call w = .ok a w₁) : w₁ = { w with provider := w₁.provider } := by
  have hend : endState (ask call) w = w₁ := by rw [endState, h]
  rw [← hend, endState_ask]

theorem registry_of_conversionContracts (h : conversionContracts target w = .ok (e, i) w₁) :
    w₁ = { w with registry := w₁.registry } := by
  rw [conversionContracts_eq, declare] at h
  split at h
  · rw [← (EStateM.Result.ok.inj h).2]
  · exact absurd h (by simp)

theorem preliminary_of_conversionContracts {x : ContractError}
    (h : conversionContracts target w = .error x w₁) : x.Preliminary := by
  rw [conversionContracts_eq, declare] at h
  split at h
  · exact absurd h (by simp)
  · exact (EStateM.Result.error.inj h).1 ▸ .registry _

/-- Once it is found that a value satisfies a contract of one operation, converting through it runs
the operation. -/
theorem runs_of_satisfied {contract : TypeIdx} (op : Operation)
    (satisfied : ask (fun r => Provider.satisfies r config v contract) w = .ok true w₁) :
    ∃ call, Provider.CallIs w.registry config w₁.provider v contract op [] call ∧
      Runs (convertThrough config v contract op.slotName) w₁ call := by
  obtain ⟨a, hconvert⟩ := Provider.exists_convert_of_satisfies (ok_of_ask satisfied)
  have hregistry : w₁.registry = w.registry := by rw [provider_of_ask satisfied]
  have callIs : Provider.CallIs w.registry config w₁.provider v contract op []
      (a.call w.registry op.slotName []) := ⟨a, hconvert, rfl⟩
  exact ⟨_, callIs, runs_convertThrough (hregistry ▸ callIs)⟩

/-- **Asking and converting go the same way.** -/
theorem course (config : Config) (v : Value) (target : TypeRef) (w : World) :
    Course config v target w := by
  cases contracts : conversionContracts target w with
  | error x w₁ =>
      refine .fails (preliminary_of_conversionContracts contracts) ?_ ?_
      · rw [outcome, canConvertTo, bind_of_error contracts]
      · rw [outcome, convertTo, bind_of_error contracts]
  | ok pair w₁ =>
      obtain ⟨e, i⟩ := pair
      have hheap : w₁.heap = w.heap := by rw [registry_of_conversionContracts contracts]
      cases explicit : ask (fun r => Provider.satisfies r config v e) w₁ with
      | error x w₂ =>
          obtain ⟨y, rfl⟩ := Provider.shape_of_satisfies (error_of_ask explicit)
          refine .fails (.shape y) ?_ ?_
          · rw [canConvertTo, outcome_bind_of_ok contracts]
            exact outcome_bind_of_error (by rw [outcome, explicit])
          · rw [convertTo, outcome_bind_of_ok contracts]
            exact outcome_bind_of_error (by rw [outcome, explicit])
      | ok found w₂ =>
          have hheap' : w₂.heap = w.heap := by rw [provider_of_ask explicit, hheap]
          cases found with
          | true =>
              obtain ⟨call, callIs, hruns⟩ := runs_of_satisfied
                (.ofConversion "cast" .explicit target) explicit
              refine .calls (.explicit contracts callIs) ?_ ?_
              · rw [outcome, canConvertTo_of_explicit contracts explicit]
              · exact hruns.of_eq (convertTo_of_explicit contracts explicit) hheap'
          | false =>
              have hasked := canConvertTo_of_not_explicit contracts explicit
              cases implicit : ask (fun r => Provider.satisfies r config v i) w₂ with
              | error x w₃ =>
                  obtain ⟨y, rfl⟩ := Provider.shape_of_satisfies (error_of_ask implicit)
                  refine .fails (.shape y) (by rw [outcome, hasked, implicit]) ?_
                  rw [convertTo, outcome_bind_of_ok contracts]
                  refine (outcome_bind_of_ok explicit).trans ?_
                  exact outcome_bind_of_error (by rw [outcome, implicit])
              | ok found w₃ =>
                  cases found with
                  | true =>
                      obtain ⟨call, callIs, hruns⟩ := runs_of_satisfied
                        (.ofConversion "convert" .implicit target) implicit
                      have hregistry : w₂.registry = w₁.registry := by
                        rw [provider_of_ask explicit]
                      have hheap'' : w₃.heap = w.heap := by rw [provider_of_ask implicit, hheap']
                      refine .calls (.implicit contracts (hregistry ▸ callIs)) ?_ ?_
                      · rw [outcome, hasked, implicit]
                      · exact hruns.of_eq (convertTo_of_implicit contracts explicit implicit)
                          hheap''
                  | false =>
                      obtain ⟨x, hx, herror⟩ := refuses_of_neither contracts explicit implicit
                      exact .refuses hx (by rw [outcome, hasked, implicit]) herror

/-- What is answered to the question is what the conversion comes to, in so many words. -/
theorem canConvertTo_iff (config : Config) (v : Value) (target : TypeRef) (w : World) :
    let asked := outcome (canConvertTo config v target) w
    let converted := outcome (convertTo config v target) w
    (∀ e, asked = .error e ↔ converted = .error e ∧ e.Preliminary) ∧
      (asked = .ok false ↔ ∃ e, converted = .error e ∧ e.Refuses v) ∧
      (asked = .ok true ↔ ∃ call, Forwards config v target w call ∧
        converted = (outcome call w.heap).mapError .eval) := by
  intro asked converted
  -- An error of the call is no other error.
  have hcall : ∀ {call : Eval Value} {e : ContractError},
      (outcome call w.heap).mapError .eval = .error e → ¬e.Preliminary ∧ ¬e.Refuses v := by
    intro call e h
    cases hrun : outcome call w.heap with
    | ok a => simp [hrun, Except.mapError] at h
    | error x =>
        obtain rfl : .eval x = e := by simpa [hrun, Except.mapError] using h
        exact ⟨nofun, nofun⟩
  cases course config v target w with
  | @fails e cause hasked hconverted =>
      have hrefuses : ¬e.Refuses v := by cases cause <;> nofun
      rw [show asked = .error e from hasked, show converted = .error e from hconverted]
      refine ⟨fun e' => ⟨?_, ?_⟩, iff_of_false nofun ?_, iff_of_false nofun ?_⟩
      · intro h
        obtain rfl := Except.error.inj h
        exact ⟨rfl, cause⟩
      · rintro ⟨h, -⟩
        obtain rfl := Except.error.inj h
        rfl
      · rintro ⟨e', h, hrefuses'⟩
        obtain rfl := Except.error.inj h
        exact hrefuses hrefuses'
      · rintro ⟨call, -, h⟩
        exact (hcall h.symm).1 cause
  | @refuses e cause hasked hconverted =>
      have hpreliminary : ¬e.Preliminary := by cases cause <;> nofun
      rw [show asked = .ok false from hasked, show converted = .error e from hconverted]
      refine ⟨fun e' => iff_of_false nofun ?_, iff_of_true rfl ⟨e, rfl, cause⟩,
        iff_of_false (by simp) ?_⟩
      · rintro ⟨h, hpreliminary'⟩
        obtain rfl := Except.error.inj h
        exact hpreliminary hpreliminary'
      · rintro ⟨call, -, h⟩
        exact (hcall h.symm).2 cause
  | @calls call forwards hasked hconverted =>
      have houtcome := hconverted.outcome
      rw [show asked = .ok true from hasked, show converted = _ from houtcome]
      refine ⟨fun e' => iff_of_false nofun fun h => (hcall h.1).1 h.2,
        iff_of_false (by simp) ?_, iff_of_true rfl ⟨call, forwards, rfl⟩⟩
      rintro ⟨e', h, hrefuses⟩
      exact (hcall h).2 hrefuses

end World

/-! ## What is declared for a conversion -/

namespace StandardContract

/-- What declaring a standard contract comes to is settled by that. -/
theorem declare_settles (c : StandardContract) (r : Registry) :
    (endState c.declare r).Settled (c.name r) (outcome c.declare r) := by
  have hsettles := Registry.contractOrDeclare_settles (c.name r)
    (fun _ => { operations := c.operations }) r
  simpa only [endState, outcome, declare_eq] using hsettles

/-- A contract that is settled under the name that it has now is not declared any more. -/
theorem declare_of_settled {c : StandardContract} {r : Registry}
    {result : Except RegistryError TypeIdx} (settled : r.Settled (c.name r) result) :
    c.declare r = (MonadExcept.ofExcept result : Registry.Change TypeIdx) r := by
  rw [declare_eq]
  exact settled.run _

end StandardContract

/-- The type is declared at first, or there is none at the position later on either. Other types
than those at a position stay anyway. -/
def TypeRef.Stays (target : TypeRef) (r later : Registry) : Prop :=
  ∀ idx, target = .named idx → (∃ d, r.type? idx = some d) ∨ later.type? idx = none

namespace TypeRef.Stays

variable {target : TypeRef} {r r' later : Registry}

theorem after (stays : target.Stays r later) (h : r.Upholds r') : target.Stays r' later := by
  intro idx hidx
  refine (stays idx hidx).imp_left ?_
  rintro ⟨d, hd⟩
  obtain ⟨d', hd', -⟩ := h.types idx d hd
  exact ⟨d', hd'⟩

/-- The contracts of one argument that stays go by one name. -/
theorem name_eq (stays : target.Stays r later) (h : r.Upholds later) {c : StandardContract}
    (args : c.args = [target]) : c.name later = c.name r := by
  refine StandardContract.name_congr ?_
  rw [args]
  exact List.forall_mem_singleton.2 (h.typeName stays)

end TypeRef.Stays

namespace Registry

variable {r later : Registry} {target : TypeRef}

/-- Declare the contracts of conversion to a type, unless they are there. -/
def declareConversions (target : TypeRef) : Change (TypeIdx × TypeIdx) := do
  let e ← (StandardContract.castableTo target).declare
  let i ← (StandardContract.implicitlyConvertibleTo target).declare
  pure (e, i)

theorem upholding_declareConversions (target : TypeRef) :
    Upholding (declareConversions target) :=
  (StandardContract.upholding_declare _).bind fun _ =>
    (StandardContract.upholding_declare _).bind fun _ => .pure _

/-- What declaring the contracts of conversion comes to is settled: the second one only matters if
the first one is to be had. -/
def ConversionsSettled (r : Registry) (target : TypeRef) : Prop :=
  ∃ result, r.Settled ((StandardContract.castableTo target).name r) result ∧
    ∀ e, result = .ok e →
      ∃ result', r.Settled ((StandardContract.implicitlyConvertibleTo target).name r) result'

/-- What is settled is not declared again. -/
theorem ConversionsSettled.rests (h : r.ConversionsSettled target) :
    endState (declareConversions target) r = r := by
  obtain ⟨result, hexplicit, hrest⟩ := h
  have hfirst := StandardContract.declare_of_settled hexplicit
  cases result with
  | error e => rw [endState, declareConversions, bind_of_error hfirst]
  | ok e =>
      obtain ⟨result', himplicit⟩ := hrest e rfl
      have hsecond := StandardContract.declare_of_settled himplicit
      rw [endState, declareConversions, bind_of_ok hfirst]
      cases result' with
      | error e' => rw [bind_of_error hsecond]
      | ok i => rw [bind_of_ok hsecond]; rfl

/-- Once the contracts of conversion have been declared, or could not be, this is settled as long as
the type goes by one name. -/
theorem conversionsSettled_of_declared (h : (endState (declareConversions target) r).Upholds later)
    (stays : target.Stays r later) : later.ConversionsSettled target := by
  have hexplicit := (StandardContract.castableTo target).declare_settles r
  have hupholds := (StandardContract.upholding_declare (.castableTo target)).upholds r
  cases hfirst : (StandardContract.castableTo target).declare r with
  | error e r₁ =>
      rw [endState, hfirst, outcome, hfirst] at hexplicit
      rw [endState, hfirst] at hupholds
      rw [endState, declareConversions, bind_of_error hfirst] at h
      have hname : (StandardContract.castableTo target).name later = _ :=
        stays.name_eq (hupholds.trans h) rfl
      exact ⟨_, hname ▸ hexplicit.upheld h, fun e he => absurd he (by simp)⟩
  | ok e r₁ =>
      rw [endState, hfirst, outcome, hfirst] at hexplicit
      rw [endState, hfirst] at hupholds
      have himplicit := (StandardContract.implicitlyConvertibleTo target).declare_settles r₁
      have hupholds' :=
        (StandardContract.upholding_declare (.implicitlyConvertibleTo target)).upholds r₁
      have hend : endState (declareConversions target) r =
          endState (StandardContract.implicitlyConvertibleTo target).declare r₁ := by
        rw [endState, declareConversions, bind_of_ok hfirst, endState]
        cases hsecond : (StandardContract.implicitlyConvertibleTo target).declare r₁ with
        | error e' r₂ => rw [bind_of_error hsecond]
        | ok i r₂ => rw [bind_of_ok hsecond]; rfl
      rw [hend] at h
      have hlater := hupholds'.trans h
      have hname : (StandardContract.castableTo target).name later = _ :=
        stays.name_eq (hupholds.trans hlater) rfl
      -- The second contract is named once the first is there.
      have hname' : (StandardContract.implicitlyConvertibleTo target).name later = _ :=
        (stays.after hupholds).name_eq hlater rfl
      exact ⟨_, hname ▸ hexplicit.upheld hlater, fun _ _ => ⟨_, hname' ▸ himplicit.upheld h⟩⟩

end Registry

/-! ## Conversions in a workspace -/

namespace World

variable {α : Type} {config : Config} {target : TypeRef} {action : Action α}

theorem endState_declare (change : Registry.Change α) (w : World) :
    endState (declare change) w = { w with registry := endState change w.registry } := by
  cases h : change w.registry <;> simp only [endState, declare, h]

theorem ConvertsInPlace.registry_eq (h : ConvertsInPlace config target action) (w : World) :
    (endState action w).registry =
      endState (Registry.declareConversions target) w.registry := by
  rw [h.registry, conversionContracts_eq, endState_declare]
  rfl

end World

namespace Workspace

/-- A declaration keeps names taken, as all those do that registries offer. -/
def Event.KeepsNames : Event → Prop
  | .declare change => Registry.Upholding change
  | _ => True

/-- A value is converted to the type, or it is asked whether it can be. -/
def Event.ConvertsTo (target : TypeRef) : Event → Prop
  | .canConvertTo _ _ other | .convertTo _ _ other => other = target
  | _ => False

variable {w : Workspace} {name : String} {p : Provider} {target : TypeRef}

theorem registry_of_conversion {α : Type} (provider : w.provider? name = some p)
    {action : Config → World.Action α}
    (h : ∀ config, World.ConvertsInPlace config target (action config)) :
    (w.onProvider name action).registry =
      endState (Registry.declareConversions target) w.registry := by
  rw [registry_onProvider provider]
  exact (h p.config).registry_eq (w.enter p)

/-- What an event does to the registry: nothing, or it declares contracts of conversion, or it is a
change of the registry. -/
theorem registry_after (w : Workspace) (e : Event) :
    (w.after e).registry = w.registry ∨
      (∃ target, e.ConvertsTo target ∧
        (w.after e).registry = endState (Registry.declareConversions target) w.registry) ∨
      ∃ change, e = .declare change ∧ (w.after e).registry = endState change w.registry := by
  have hconversion : ∀ {α : Type} (name : String) (target : TypeRef)
      (action : Config → World.Action α),
      (∀ config, World.ConvertsInPlace config target (action config)) →
      (w.onProvider name action).registry = w.registry ∨ (w.onProvider name action).registry =
        endState (Registry.declareConversions target) w.registry := by
    intro α name target action h
    cases provider : w.provider? name with
    | none => exact Or.inl (by rw [onProvider, provider])
    | some p => exact Or.inr (registry_of_conversion provider h)
  cases e with
  | create name config => exact Or.inl rfl
  | request name q =>
      refine Or.inl ?_
      cases provider : w.provider? name with
      | none => rw [after, onProvider, provider]
      | some p =>
          rw [after, registry_onProvider provider, World.endState_ask]
          rfl
  | canConvertTo name v target =>
      have h := hconversion name target _ fun _ => World.convertsInPlace_canConvertTo v target
      exact h.imp_right fun h => Or.inl ⟨target, rfl, h⟩
  | convertTo name v target =>
      have h := hconversion name target _ fun _ => World.convertsInPlace_convertTo v target
      exact h.imp_right fun h => Or.inl ⟨target, rfl, h⟩
  | declare change =>
      refine Or.inr (Or.inr ⟨change, rfl, ?_⟩)
      cases h : change w.registry <;> simp only [after, endState, Workspace.declare, h]
  | eval run =>
      refine Or.inl ?_
      cases h : run w.registry w.heap <;> simp only [after, endState, Workspace.eval, h]

theorem upholds_after (w : Workspace) {e : Event} (keeps : e.KeepsNames) :
    w.registry.Upholds (w.after e).registry := by
  rcases registry_after w e with h | ⟨target, -, h⟩ | ⟨change, rfl, h⟩ <;> rw [h]
  · exact .refl _
  · exact (Registry.upholding_declareConversions target).upholds w.registry
  · exact Registry.Upholding.upholds keeps w.registry

theorem upholds_run (w : Workspace) {events : List Event} (keeps : ∀ e ∈ events, e.KeepsNames) :
    w.registry.Upholds (w.run events).registry := by
  induction events generalizing w with
  | nil => exact .refl _
  | cons e rest ih =>
      have hfirst := upholds_after w (keeps e List.mem_cons_self)
      exact hfirst.trans (ih (w.after e) fun e' he' => keeps e' (List.mem_cons_of_mem _ he'))

/-- After a first conversion to a type, or a first question whether there is one, no other changes
the registry. -/
theorem registry_of_again {first again : Event} {between : List Event}
    (declared : (w.after first).registry =
      endState (Registry.declareConversions target) w.registry)
    (keeps : ∀ e ∈ between, e.KeepsNames) (converts : again.ConvertsTo target)
    (stays : target.Stays w.registry ((w.after first).run between).registry) :
    (((w.after first).run between).after again).registry =
      ((w.after first).run between).registry := by
  have hupholds := upholds_run (w.after first) keeps
  rw [declared] at hupholds
  have hsettled := Registry.conversionsSettled_of_declared hupholds stays
  rcases registry_after ((w.after first).run between) again with
    h | ⟨other, hother, h⟩ | ⟨_, rfl, -⟩
  · exact h
  · have hsame : other = target := by
      cases again with
      | canConvertTo | convertTo => exact hother.symm.trans converts
      | create | request | declare | eval => exact absurd converts id
    rw [h, hsame, hsettled.rests]
  · exact absurd converts id

/-- **Asking foresees converting.** Whatever a provider and its registry have been through, asking
whether a value converts to a type fails exactly if converting it fails with the same error, before
it is found out whether there is a conversion; the answer is no exactly if converting fails because
there is none; and the answer is yes exactly if all that is left to do is one call, whose result and
errors are those of the conversion. Once either has been done, neither changes the registry again,
whatever has happened in between, unless the type is a position at which a type has been declared
only since. -/
theorem foresees_conversion (provider : w.provider? name = some p) (v : Value)
    (target : TypeRef) :
    let asked := outcome (act name p (World.canConvertTo p.config v target)) w
    let converted := outcome (act name p (World.convertTo p.config v target)) w
    ((∀ e, asked = .error e ↔ converted = .error e ∧ e.Preliminary) ∧
      (asked = .ok false ↔ ∃ e, converted = .error e ∧ e.Refuses v) ∧
      (asked = .ok true ↔ ∃ call, World.Forwards p.config v target (w.enter p) call ∧
        converted = (outcome call w.heap).mapError .eval)) ∧
    ∀ first ∈ [Event.canConvertTo name v target, .convertTo name v target], ∀ between again,
      (∀ e ∈ between, e.KeepsNames) → again.ConvertsTo target →
      target.Stays w.registry ((w.after first).run between).registry →
      (((w.after first).run between).after again).registry =
        ((w.after first).run between).registry := by
  intro asked converted
  refine ⟨?_, fun first hfirst between again keeps converts stays => ?_⟩
  · simp only [asked, converted, outcome_act]
    exact World.canConvertTo_iff p.config v target (w.enter p)
  · refine registry_of_again ?_ keeps converts stays
    rcases List.mem_pair.1 hfirst with rfl | rfl
    · exact registry_of_conversion provider fun _ => World.convertsInPlace_canConvertTo v target
    · exact registry_of_conversion provider fun _ => World.convertsInPlace_convertTo v target

/-! ### A type that is declared, and one that is not -/

/-- One provider, and a class of temperatures. -/
def thermometer : Workspace where
  registry := World.celsiusRegistry
  providers := [("p", { config := {} })]

/-- A temperature is a temperature already. -/
theorem convertTo_celsius :
    let v : Value := .object ⟨0, ⟨0⟩⟩
    outcome (act "p" { config := {} } (World.convertTo {} v (.named ⟨0⟩))) thermometer = .ok v := by
  intro v
  rw [outcome_act]
  have free := World.conversionNamesFree_celsius (.named ⟨0⟩) List.mem_cons_self
  rcases @World.conversionContracts_of_free _ (thermometer.enter { config := {} }) free with
    ⟨e, i, r, contracts, within, ⟨_, he⟩, ⟨_, hi⟩⟩ | ⟨room, -⟩
  · have hshape : ∀ name kind, (Operation.ofConversion name kind (.named ⟨0⟩)).InShape :=
      Operation.inShape_ofConversion (by simp) (by simp)
    have hv : v.runtimeType? = some (.named ⟨0⟩) := rfl
    obtain ⟨hruns, -⟩ := World.convertTo_of_contracts contracts (.fresh 1) hv (within.isPublic rfl)
      (Registry.requires_of_type? he (hshape "cast" .explicit))
      (Registry.requires_of_type? hi (hshape "convert" .implicit))
    rw [within.conversion? rfl] at hruns
    exact (hruns (pure v) rfl).outcome
  · exact absurd room (by decide)

/-- A temperature is foreseen to become a temperature. Neither the question nor the conversion
declares anything more after the first, though another class has been declared meanwhile. -/
theorem foresees_conversion_celsius :
    let v : Value := .object ⟨0, ⟨0⟩⟩
    let kelvin : Event := .declare (do let _ ← Registry.defineType true "Kelvin" fun _ => {})
    let later := (thermometer.after (.canConvertTo "p" v (.named ⟨0⟩))).run [kelvin]
    outcome (act "p" { config := {} } (World.convertTo {} v (.named ⟨0⟩))) thermometer = .ok v ∧
      outcome (act "p" { config := {} } (World.canConvertTo {} v (.named ⟨0⟩))) thermometer =
        .ok true ∧
      (later.after (.convertTo "p" .null (.named ⟨0⟩))).registry = later.registry := by
  intro v kelvin later
  have provider : thermometer.provider? "p" = some { config := {} } := rfl
  obtain ⟨⟨hfails, hrefuses, -⟩, hagain⟩ := foresees_conversion provider v (.named ⟨0⟩)
  refine ⟨convertTo_celsius, ?_, ?_⟩
  · cases hasked : outcome (act "p" { config := {} } (World.canConvertTo {} v (.named ⟨0⟩)))
        thermometer with
    | error e => exact absurd (convertTo_celsius.symm.trans ((hfails e).1 hasked).1) nofun
    | ok found =>
        cases found with
        | true => rfl
        | false =>
            obtain ⟨e, herror, -⟩ := hrefuses.1 hasked
            exact absurd (convertTo_celsius.symm.trans herror) nofun
  · refine hagain _ List.mem_cons_self [kelvin] _ (List.forall_mem_singleton.2 ?_) rfl ?_
    · exact (Registry.isCall_defineType true "Kelvin" fun _ => {}).upholding.bind fun _ => .pure ()
    · intro idx hidx
      obtain rfl := TypeRef.named.inj hidx
      exact Or.inl ⟨_, rfl⟩

/-- No provider has been asked for anything yet, and no type is declared. -/
def blank : Workspace where
  registry := {}
  providers := [("p", { config := {} })]

/-- The contract of conversion to the first position is declared at that position itself, so that
there is a type by another name then. The next conversion declares a contract for that name. -/
theorem redeclares_conversion :
    let five : Value := .int .i32 5
    let name := "CastableTo<CastableTo<<type 0>>>"
    ∀ first ∈ [Event.canConvertTo "p" five (.named ⟨0⟩), .convertTo "p" five (.named ⟨0⟩)],
      ∀ again ∈ [Event.canConvertTo "p" five (.named ⟨0⟩), .convertTo "p" five (.named ⟨0⟩)],
        (blank.after first).registry.byName? name = none ∧
          ((blank.after first).after again).registry.byName? name = some ⟨2⟩ := by
  intro five name first hfirst again hagain
  have hdeclares : ∀ {w : Workspace} {p : Provider}, w.provider? "p" = some p →
      ∀ e ∈ [Event.canConvertTo "p" five (.named ⟨0⟩), .convertTo "p" five (.named ⟨0⟩)],
        (w.after e).registry =
            endState (Registry.declareConversions (.named ⟨0⟩)) w.registry ∧
          ∃ p', (w.after e).provider? "p" = some p' := by
    intro w p provider e he
    rcases List.mem_pair.1 he with rfl | rfl
    · exact ⟨registry_of_conversion provider fun _ => World.convertsInPlace_canConvertTo five _,
        _, (provider?_onProvider provider _ "p").trans (if_pos rfl)⟩
    · exact ⟨registry_of_conversion provider fun _ => World.convertsInPlace_convertTo five _,
        _, (provider?_onProvider provider _ "p").trans (if_pos rfl)⟩
  obtain ⟨hregistry, p', provider⟩ := hdeclares (w := blank) rfl first hfirst
  rw [(hdeclares provider again hagain).1, hregistry]
  decide +kernel

end Workspace

end Contracts
