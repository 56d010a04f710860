import Contracts.Proofs.Lifecycle
import Contracts.Proofs.Receiver

set_option autoImplicit false

/-! # The entry points agree

What a provider says about a type and a contract comes down to one `Provider.Verdict`: the result of
the match that it remembers, or else what matching the two gives now. Every entry point answers from
the verdict, and the verdict stays as long as the registry does and the cache is not cleared. So
after any events, whatever the cache holds by then, checking, explaining, converting and asking for
the adapter type agree (`Workspace.agree_run`).

Moves keep the verdict if they are by matches in the registry as it is, and an action of a provider
does nothing but such moves in the registry that it leaves behind (`World.Settles`). -/

namespace Contracts

namespace Provider

/-! ## Verdicts -/

/-- What there is to say about a type and a contract: why the two cannot be matched, or how they
match. -/
abbrev Verdict := Except ContractError MatchResult

/-- The verdict on a key, remembered or found now. -/
def verdict (r : Registry) (config : Config) (s : State) (key : CacheKey) : Verdict :=
  match s.stored? key with
  | some entry => .ok entry.result
  | none => computeMatch r config key.implType key.contract

/-- The adapter type for a verdict, if the contract is satisfied. -/
def Verdict.grant (verdict : Verdict) (a : AdapterType) : Except ContractError AdapterType := do
  let result ← verdict
  if result.satisfied then pure a
  else throw (.unsatisfied result.typeName result.contractName result.issues)

variable {r : Registry} {config : Config} {s s' : State} {key : CacheKey}

theorem verdict_of_stored {entry : CacheEntry} (h : s.stored? key = some entry) :
    verdict r config s key = .ok entry.result := by
  rw [verdict, h]

theorem verdict_congr (h : s'.stored? key = s.stored? key) :
    verdict r config s' key = verdict r config s key := by
  rw [verdict, verdict, h]

theorem Verdict.map_grant {β : Type} (result : MatchResult) (a : AdapterType)
    (f : AdapterType → β) : (Verdict.grant (.ok result) a).map f =
      if result.satisfied then .ok (f a)
      else .error (.unsatisfied result.typeName result.contractName result.issues) := by
  cases h : result.satisfied <;> simp [grant, h, bind, Except.bind, pure, Except.pure, Except.map,
    throw, throwThe, MonadExceptOf.throw]

/-- A match that is recorded is the verdict that there was without it. -/
theorem Move.verdict_eq (h : Move (Matches r config) s s') (key : CacheKey) :
    verdict r config s' key = verdict r config s key := by
  cases h with
  | hit => rfl
  | record at_ result absent fresh =>
      rw [verdict, verdict, State.stored?_record absent]
      by_cases hkey : key = at_
      · subst hkey
        rw [if_pos rfl, absent]
        exact fresh.symm
      · rw [if_neg hkey]
  | publish at_ result present satisfied =>
      rw [verdict, verdict, State.stored?_publish present]
      by_cases hkey : key = at_
      · subst hkey
        rw [if_pos rfl, present]
        rfl
      · rw [if_neg hkey]

theorem Moves.verdict_eq (h : Moves (Matches r config) s s') (key : CacheKey) :
    verdict r config s' key = verdict r config s key := by
  induction h with
  | refl => rfl
  | tail _ hmove ih => exact (hmove.verdict_eq key).trans ih

/-- What a key finds is its verdict. -/
theorem verdict_of_finds {result : MatchResult} {a : AdapterType}
    (h : Finds r config s key result a) : verdict r config s key = .ok result := by
  cases h with
  | adapter _ present _ => exact verdict_of_stored present
  | matched _ present => exact verdict_of_stored present
  | fresh _ absent found =>
      rw [verdict, absent]
      exact found

end Provider

namespace Provider

/-! ## Results of matches in the registry's past -/

/-- The result was found for its key when the registry had no contracts but those it has now. -/
def FoundBy (r : Registry) (key : CacheKey) (result : MatchResult) : Prop :=
  ∃ r₀ config, r₀.Retains r ∧ Matches r₀ config key result

/-- The contract has an operation that cannot do without an instance. -/
def NeedsInstance (r : Registry) (contract : TypeIdx) : Prop :=
  ∃ spec, r.extract contract = .ok spec ∧ ∃ op ∈ spec.operations, op.isStatic = false

theorem foundBy_of_matches {r : Registry} {config : Config} {key : CacheKey}
    {result : MatchResult} (h : Matches r config key result) : FoundBy r key result :=
  ⟨r, config, .refl r, h⟩

theorem FoundBy.later {r r' : Registry} {key : CacheKey} {result : MatchResult}
    (h : FoundBy r key result) (retains : r.Retains r') : FoundBy r' key result := by
  obtain ⟨r₀, config, hbefore, hmatch⟩ := h
  exact ⟨r₀, config, hbefore.trans retains, hmatch⟩

/-- However long ago the result was found, it goes by the operations that the contract has now. -/
theorem FoundBy.staticOnly_iff {r : Registry} {key : CacheKey} {result : MatchResult}
    (h : FoundBy r key result) : result.staticOnly = true ↔ ¬NeedsInstance r key.contract := by
  obtain ⟨r₀, config, retains, hmatch⟩ := h
  obtain ⟨spec, -, hextract, rfl⟩ := matches_iff.1 hmatch
  have hnow := Registry.extract_of_retains retains hextract
  simp [NeedsInstance, hnow, Registry.matchSpec, ContractSpec.isStaticOnly]

end Provider

namespace Workspace

/-! ## What one event leaves -/

/-- A declaration leaves the contracts as they are, as all those do that registries offer. -/
def Event.Lawful : Event → Prop
  | .declare change => Registry.Keeping change
  | _ => True

/-- What an event does to a name whose cache it does not reset: the provider, if there is one, stays
as it is, or it keeps its configuration and its cache makes moves, by matches in the registry that
the event leaves behind. -/
inductive Continues (w w' : Workspace) (name : String) : Prop
  | same (h : w'.provider? name = w.provider? name)
  | moves (p : Provider) (cache : Cache) (before : w.provider? name = some p)
      (after : w'.provider? name = some ⟨p.config, cache⟩)
      (h : Provider.Moves (Provider.Matches w'.registry p.config) (w.state name) (w'.state name))

theorem stored?_of_provider?_eq {w w' : Workspace} {name : String}
    (h : w'.provider? name = w.provider? name) (key : CacheKey) :
    w'.stored? name key = w.stored? name key := by
  simp only [stored?, state, h, Provider.State.stored?]

theorem registry_onProvider {α : Type} {w : Workspace} {acting : String} {p : Provider}
    (h : w.provider? acting = some p) (action : Config → World.Action α) :
    (w.onProvider acting action).registry =
      (endState (action p.config) (w.enter p)).registry := by
  rw [onProvider, h]
  dsimp only
  rw [endState_act]
  rfl

theorem provider?_onProvider {α : Type} {w : Workspace} {acting : String} {p : Provider}
    (h : w.provider? acting = some p) (action : Config → World.Action α) (name : String) :
    (w.onProvider acting action).provider? name = if name = acting then
      some ⟨p.config, (endState (action p.config) (w.enter p)).provider.cache⟩
      else w.provider? name := by
  rw [onProvider, h]
  dsimp only
  rw [endState_act, leave, provider?_setProvider]
  rfl

/-- Whatever one provider does leaves the others as they are. -/
theorem provider?_onProvider_of_ne {α : Type} (w : Workspace) {acting name : String}
    (action : Config → World.Action α) (hname : name ≠ acting) :
    (w.onProvider acting action).provider? name = w.provider? name := by
  cases hacting : w.provider? acting with
  | none => rw [onProvider, hacting]
  | some actor => rw [provider?_onProvider hacting, if_neg hname]

/-- What settles continues every provider. -/
theorem continues_onProvider {α : Type} (w : Workspace) (acting : String)
    {action : Config → World.Action α}
    (h : ∀ config world, World.Settles config world (endState (action config) world))
    (name : String) : Continues w (w.onProvider acting action) name := by
  by_cases hname : name = acting
  · subst hname
    cases hp : w.provider? name with
    | none =>
        have hsame : w.onProvider name action = w := by rw [onProvider, hp]
        exact .same (by rw [hsame])
    | some p =>
        refine .moves p _ hp ((provider?_onProvider hp action name).trans (if_pos rfl)) ?_
        rw [state_onProvider hp, if_pos rfl, registry_onProvider hp, ← provider_enter hp]
        exact (h p.config (w.enter p)).moves
  · exact .same (provider?_onProvider_of_ne w action hname)

/-- An event continues every provider whose cache it does not reset. -/
theorem continues_after (w : Workspace) {e : Event} {name : String} (h : ¬e.Resets name) :
    Continues w (w.after e) name := by
  cases e with
  | create other config =>
      refine .same ?_
      rw [after, provider?_setProvider, if_neg fun heq => h heq.symm]
  | request acting q =>
      by_cases hq : q = .clearCache
      · subst hq
        exact .same (provider?_onProvider_of_ne w _ fun heq => h heq.symm)
      · exact continues_onProvider w acting (fun config world =>
          (World.inPlace_ask fun r => Provider.along_serve r config hq).settles world) name
  | canConvertTo acting v target =>
      exact continues_onProvider w acting (fun _ => World.settles_canConvertTo v target) name
  | convertTo acting v target =>
      exact continues_onProvider w acting (fun _ => World.settles_convertTo v target) name
  | declare change =>
      refine .same ?_
      cases hchange : change w.registry <;>
        simp only [after, endState, Workspace.declare, hchange, provider?]
  | eval run =>
      refine .same ?_
      cases heval : run w.registry w.heap <;>
        simp only [after, endState, Workspace.eval, heval, provider?]

theorem retains_onProvider {α : Type} (w : Workspace) (acting : String)
    {action : Config → World.Action α} (h : ∀ config (world : World),
      world.registry.Retains (endState (action config) world).registry) :
    w.registry.Retains (w.onProvider acting action).registry := by
  cases hacting : w.provider? acting with
  | none =>
      rw [onProvider, hacting]
      exact .refl _
  | some p =>
      rw [registry_onProvider hacting]
      exact h p.config (w.enter p)

/-- A lawful event leaves the contracts as they are. -/
theorem retains_after (w : Workspace) {e : Event} (lawful : e.Lawful) :
    w.registry.Retains (w.after e).registry := by
  cases e with
  | create name config => exact .refl _
  | request acting q =>
      refine retains_onProvider w acting fun config world => ?_
      rw [World.endState_ask]
      exact .refl _
  | canConvertTo acting v target =>
      refine retains_onProvider w acting fun config world => ?_
      have hsettles : World.Settles config world _ := World.settles_canConvertTo v target world
      exact hsettles.retains
  | convertTo acting v target =>
      refine retains_onProvider w acting fun config world => ?_
      have hsettles : World.Settles config world _ := World.settles_convertTo v target world
      exact hsettles.retains
  | declare change =>
      have hretains := Registry.Keeping.retains lawful w.registry
      cases hchange : change w.registry <;>
        simpa only [after, endState, Workspace.declare, hchange] using hretains
  | eval run =>
      have hsame : (w.after (.eval run)).registry = w.registry := by
        cases heval : run w.registry w.heap <;> simp only [after, endState, Workspace.eval, heval]
      rw [hsame]
      exact .refl _

/-! ## What the caches hold -/

/-- Every cache holds results of matches in the registry's past. -/
def Traced (w : Workspace) : Prop :=
  ∀ name, Provider.Keeps (Provider.FoundBy w.registry) (w.state name)

theorem traced_fresh (registry : Registry) (heap : Heap) (nextId : Nat) :
    Traced { registry, heap, nextId } := fun _ => Provider.keeps_fresh _ nextId

theorem traced_after {w : Workspace} {e : Event} (traced : w.Traced)
    (retains : w.registry.Retains (w.after e).registry) : (w.after e).Traced := by
  intro name
  have hbefore : Provider.Keeps (Provider.FoundBy (w.after e).registry) (w.state name) :=
    fun key entry h => ⟨(traced name key entry h).1.later retains, (traced name key entry h).2⟩
  by_cases hreset : e.Resets name
  -- An empty cache keeps everything.
  · obtain ⟨touched, heffect⟩ := w.exists_effect e
    obtain rfl := heffect.only name hreset
    intro key entry h
    exact absurd (((heffect.reset hreset).1 key).symm.trans h) (by simp)
  · cases continues_after w hreset with
    | same hsame =>
        exact fun key entry h =>
          hbefore key entry ((stored?_of_provider?_eq hsame key).symm.trans h)
    | moves p cache _ _ hmoves =>
        exact (hmoves.mono fun _ _ => Provider.foundBy_of_matches).keeps hbefore

theorem traced_run {w : Workspace} (traced : w.Traced) {events : List Event}
    (lawful : ∀ e ∈ events, e.Lawful) : (w.run events).Traced := by
  induction events generalizing w with
  | nil => exact traced
  | cons e rest ih =>
      have hfirst := traced_after traced (retains_after w (lawful e List.mem_cons_self))
      exact ih hfirst fun e' he' => lawful e' (List.mem_cons_of_mem _ he')

/-! ## Verdicts along a run -/

/-- The verdict of a provider on a key. -/
def verdict? (w : Workspace) (name : String) (key : CacheKey) : Option Provider.Verdict :=
  (w.provider? name).map fun p => Provider.verdict w.registry p.config (w.state name) key

/-- None of the events changes the registry or empties the cache of the provider of a name. -/
def Undisturbed (name : String) : Workspace → List Event → Prop
  | _, [] => True
  | w, e :: rest => ¬e.Resets name ∧ (w.after e).registry = w.registry ∧
      Undisturbed name (w.after e) rest

theorem verdict?_after {w : Workspace} {e : Event} {name : String} (h : ¬e.Resets name)
    (same : (w.after e).registry = w.registry) (key : CacheKey) :
    (w.after e).verdict? name key = w.verdict? name key := by
  cases continues_after w h with
  | same hsame =>
      have hstored : ((w.after e).state name).stored? key = (w.state name).stored? key :=
        stored?_of_provider?_eq hsame key
      simp only [verdict?, hsame, same, Provider.verdict_congr hstored]
  | moves p cache before after hmoves =>
      rw [same] at hmoves
      simp only [verdict?, before, after, same, Option.map_some, hmoves.verdict_eq key]

/-- What is undisturbed keeps its verdict, and what the caches hold. -/
theorem verdict?_run {w : Workspace} (traced : w.Traced) {name : String} {future : List Event}
    (h : Undisturbed name w future) : (w.run future).Traced ∧
      (w.run future).registry = w.registry ∧
      ∀ key, (w.run future).verdict? name key = w.verdict? name key := by
  induction future generalizing w with
  | nil => exact ⟨traced, rfl, fun _ => rfl⟩
  | cons e rest ih =>
      obtain ⟨hreset, same, hrest⟩ := h
      have hretains : w.registry.Retains (w.after e).registry := same ▸ .refl _
      obtain ⟨htraced, hregistry, hverdict⟩ := ih (traced_after traced hretains) hrest
      exact ⟨htraced, hregistry.trans same,
        fun key => (hverdict key).trans (verdict?_after hreset same key)⟩

/-! ## Agreement -/

/-- What the entry points of a provider have to say about a type and a contract on which it has the
given verdict, and for which it has or would make the given adapter type. -/
structure Agree (w : Workspace) (name : String) (ty : ImplType) (contract : TypeIdx)
    (verdict : Provider.Verdict) (a : AdapterType) : Prop where
  made : ∀ result, verdict = .ok result → a = .synthesize a.id result
  check : w.reply? name (.check ty contract) =
    some (verdict.map fun result => .truth result.satisfied)
  explain : w.reply? name (.explain ty contract) = some (verdict.map .matched)
  adapterType : w.reply? name (.adapterType ty contract) =
    some ((verdict.grant a).map .adapterType)
  satisfies : ∀ v : Value, v.runtimeType? = some ty →
    w.reply? name (.satisfies v contract) = w.reply? name (.check ty contract)
  convert : ∀ v : Value, v.runtimeType? = some ty → w.reply? name (.convert v contract) =
    some ((verdict.grant a).map fun a => .adapter ⟨a, some v⟩)
  /-- An operation that needs an instance rules out an adapter without one, even if the contract is
  not satisfied. -/
  instanceRequired : Provider.NeedsInstance w.registry contract →
    w.reply? name (.convertStatic ty contract) =
      some (verdict.bind fun result => .error (.instanceRequired result.contractName))
  convertStatic : ¬Provider.NeedsInstance w.registry contract →
    w.reply? name (.convertStatic ty contract) =
      some ((verdict.grant a).map fun a => .adapter ⟨a, none⟩)
  /-- The adapter type that one of the entry points hands out is the one that is handed out ever
  after. -/
  lasting : ∀ {q reply b}, w.reply? name q = some (.ok reply) → reply.adapterType? = some b →
    q.key? = some ⟨ty, contract⟩ → b = a ∧ ∀ future, Uncleared name future →
      ((w.after (.request name q)).run future).reply? name (.adapterType ty contract) =
        some (.ok (.adapterType a))

theorem Traced.kept {w : Workspace} (traced : w.Traced) : w.Kept := by
  intro name key entry h
  obtain ⟨⟨r₀, config, -, hmatch⟩, hadapter⟩ := traced name key entry h
  exact ⟨⟨r₀, config, hmatch⟩, hadapter⟩

/-- An adapter type that is handed out is the one that the key has or would get. -/
theorem adapterType?_of_answer {q : Provider.Request} {result : MatchResult} {a b : AdapterType}
    {reply : Provider.Reply} (h : q.answer result a = .ok reply)
    (hb : reply.adapterType? = some b) : b = a := by
  cases q <;> simp only [Provider.Request.answer] at h <;> (repeat' split at h) <;>
    cases h <;> simp_all [Provider.Reply.adapterType?]

theorem key?_satisfies {v : Value} {key : CacheKey} (h : v.runtimeType? = some key.implType) :
    (Provider.Request.satisfies v key.contract).key? = some key := by
  simp [Provider.Request.key?, h]

theorem key?_convert {v : Value} {key : CacheKey} (h : v.runtimeType? = some key.implType) :
    (Provider.Request.convert v key.contract).key? = some key := by
  simp [Provider.Request.key?, h]

/-- A key that finds a result is agreed on. -/
theorem agree_of_finds {w : Workspace} (traced : w.Traced) {name : String} {p : Provider}
    (hp : w.provider? name = some p) {key : CacheKey} {result : MatchResult} {a : AdapterType}
    (h : Provider.Finds w.registry p.config (w.state name) key result a) :
    Agree w name key.implType key.contract (.ok result) a := by
  obtain ⟨hfound, hmade⟩ := Provider.found_of_finds (traced name) Provider.foundBy_of_matches h
  have hanswer : ∀ {q : Provider.Request}, q.key? = some key →
      w.reply? name q = some (q.answer result a) := by
    intro q hkey
    rw [reply?_eq hp, Provider.outcome_of_finds hkey h]
  have hgrant (f : AdapterType → Provider.Reply) := Provider.Verdict.map_grant result a f
  have hconvertStatic := hanswer (q := .convertStatic key.implType key.contract) rfl
  simp only [Provider.Request.answer] at hconvertStatic
  refine ⟨?_, hanswer rfl, hanswer rfl, ?_, ?_, ?_, ?_, ?_, ?_⟩
  · rintro _ heq
    obtain rfl := Except.ok.inj heq
    exact hmade
  · rw [hanswer rfl, hgrant]
    rfl
  · intro v hv
    rw [hanswer (key?_satisfies hv), hanswer rfl]
    rfl
  · intro v hv
    rw [hanswer (key?_convert hv), hgrant]
    rfl
  · intro needs
    have hstatic : result.staticOnly = false := by
      rw [Bool.eq_false_iff]
      exact fun h => hfound.staticOnly_iff.1 h needs
    rw [hconvertStatic, hstatic]
    rfl
  · intro free
    rw [hconvertStatic, hfound.staticOnly_iff.2 free, hgrant]
    rfl
  · intro q reply b hreply hb hq
    have hok := Option.some.inj ((hanswer hq).symm.trans hreply)
    obtain rfl := adapterType?_of_answer hok hb
    obtain ⟨key', hkey', hstored⟩ := stored?_of_reply hreply hb
    obtain rfl := Option.some.inj (hq.symm.trans hkey')
    have horderly := orderly_of_kept (kept_after traced.kept (.request name q))
    exact ⟨rfl, fun future huncleared => (horderly.shared hstored huncleared).1⟩

/-- A key that can neither be found nor matched is agreed on. No adapter type is handed out, so it
is none in particular. -/
theorem agree_of_error {w : Workspace} {name : String} {p : Provider}
    (hp : w.provider? name = some p) {key : CacheKey} {e : ContractError}
    (absent : (w.state name).stored? key = none)
    (herror : Provider.computeMatch w.registry p.config key.implType key.contract = .error e)
    (a : AdapterType) : Agree w name key.implType key.contract (.error e) a := by
  have hfails : ∀ {q : Provider.Request}, q.key? = some key →
      w.reply? name q = some (.error e) := by
    intro q hkey
    rw [reply?_eq hp, Provider.outcome_of_error hkey absent herror]
  refine ⟨fun result heq => absurd heq (by simp), hfails rfl, hfails rfl, hfails rfl,
    fun v hv => (hfails (key?_satisfies hv)).trans (hfails rfl).symm,
    fun v hv => hfails (key?_convert hv), fun _ => hfails rfl, fun _ => hfails rfl,
    fun hreply _ hq => ?_⟩
  exact absurd ((hfails hq).symm.trans hreply) (by simp)

/-- The entry points agree on the verdict. -/
theorem exists_agree {w : Workspace} (traced : w.Traced) {name : String} {ty : ImplType}
    {contract : TypeIdx} {verdict : Provider.Verdict}
    (h : w.verdict? name ⟨ty, contract⟩ = some verdict) :
    ∃ a, Agree w name ty contract verdict a := by
  obtain ⟨p, hp, rfl⟩ := Option.map_eq_some_iff.1 h
  rcases Provider.finds_or_error (traced name) ⟨ty, contract⟩ with
    ⟨result, a, hfinds⟩ | ⟨habsent, e, herror⟩
  · rw [Provider.verdict_of_finds hfinds]
    exact ⟨a, agree_of_finds traced hp hfinds⟩
  · have hverdict : Provider.verdict w.registry p.config (w.state name) ⟨ty, contract⟩ =
        .error e := by
      rw [Provider.verdict, habsent]
      exact herror
    rw [hverdict]
    exact ⟨.synthesize 0 (w.registry.matchSpec p.config ty ⟨contract, "", []⟩),
      agree_of_error hp habsent herror _⟩

/-- **The entry points agree.** After any events that leave the contracts as they are, a provider
has one verdict on each type and contract, and until the registry changes or the cache is emptied,
every entry point answers from it. A value that is an instance of no type satisfies no contract and
is converted through none. -/
theorem agree_run (registry : Registry) (heap : Heap) (nextId : Nat) {past : List Event}
    (lawful : ∀ e ∈ past, e.Lawful) {name : String} {p : Provider}
    (h : (Workspace.run { registry, heap, nextId } past).provider? name = some p) :
    let w := Workspace.run { registry, heap, nextId } past
    (∀ ty contract, ∃ verdict, w.verdict? name ⟨ty, contract⟩ = some verdict ∧
        ∀ future, Undisturbed name w future →
          ∃ a, Agree (w.run future) name ty contract verdict a) ∧
      ∀ (v : Value) contract, v.runtimeType? = none → ∀ future, Undisturbed name w future →
        (w.run future).reply? name (.satisfies v contract) = some (.ok (.truth false)) ∧
          (w.run future).reply? name (.convert v contract) = some (.error (.noRuntimeType v)) := by
  intro w
  have htraced : w.Traced := traced_run (traced_fresh registry heap nextId) lawful
  have hverdict : ∀ key, w.verdict? name key =
      some (Provider.verdict w.registry p.config (w.state name) key) := by
    intro key
    rw [verdict?, h]
    rfl
  refine ⟨fun ty contract => ⟨_, hverdict _, fun future undisturbed => ?_⟩, ?_⟩
  · obtain ⟨hlater, -, hsame⟩ := verdict?_run htraced undisturbed
    exact exists_agree hlater ((hsame _).trans (hverdict _))
  · intro v contract hv future undisturbed
    obtain ⟨-, -, hsame⟩ := verdict?_run htraced undisturbed
    have hthere := (hsame ⟨.named contract, contract⟩).trans (hverdict _)
    obtain ⟨p', hp', -⟩ := Option.map_eq_some_iff.1 hthere
    have hkeyless : ∀ {q : Provider.Request}, q.key? = none →
        (w.run future).reply? name q = some q.keyless := by
      intro q hkey
      rw [reply?_eq hp', Provider.outcome_of_keyless hkey]
    have hnone : (v.runtimeType?.map fun ty => (⟨ty, contract⟩ : CacheKey)) = none := by
      rw [hv]
      rfl
    exact ⟨hkeyless hnone, hkeyless hnone⟩

/-- A contract is declared, and a check of the factory is made before it is asked about again. -/
theorem agree_run_factory :
    let past : List Event := [.declare do let _ ← StandardContract.stringable.declare,
      .create "main" {}]
    let w := Workspace.run { registry := factoryRegistry } past
    let future : List Event := [.request "main" (.check (.named ⟨1⟩) ⟨0⟩)]
    (∀ e ∈ past, e.Lawful) ∧ w.provider? "main" = some { config := {} } ∧
      Undisturbed "main" w future ∧ ∃ verdict a,
        w.verdict? "main" ⟨.named ⟨1⟩, ⟨0⟩⟩ = some verdict ∧
          Agree (w.run future) "main" (.named ⟨1⟩) ⟨0⟩ verdict a := by
  intro past w future
  have hlawful : ∀ e ∈ past, e.Lawful := by
    intro e he
    rcases List.mem_pair.1 he with rfl | rfl
    · exact (StandardContract.keeping_declare .stringable).bind fun _ => .pure ()
    · exact trivial
  have hprovider : w.provider? "main" = some { config := {} } := rfl
  have hundisturbed : Undisturbed "main" w future := by
    refine ⟨id, ?_, trivial⟩
    rw [after, registry_onProvider hprovider, World.endState_ask]
    rfl
  obtain ⟨verdict, hverdict, hagree⟩ :=
    (agree_run factoryRegistry .empty 1 hlawful hprovider).1 (.named ⟨1⟩) ⟨0⟩
  obtain ⟨a, ha⟩ := hagree future hundisturbed
  exact ⟨hlawful, hprovider, hundisturbed, verdict, a, hverdict, ha⟩

end Workspace

end Contracts
