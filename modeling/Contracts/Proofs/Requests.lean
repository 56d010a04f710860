import Contracts.Proofs.CacheMoves

set_option autoImplicit false

/-! # Requests to a provider

Everything that a provider can be asked for is a `Provider.Request`, and `Provider.serve` is the
call that serves it. What a request comes to is read off two things that the state gives for its
key: the result of the match and the adapter type that goes with it (`Provider.Finds`). The main
result, `Provider.outcome_of_finds`, says that each request is answered from these two alone
(`Provider.Request.answer`); `Provider.along_serve` says that serving it is a series of moves. -/

namespace Contracts

namespace Provider

/-! ## Requests and replies -/

/-- What a provider can be asked for. -/
inductive Request
  | check (ty : ImplType) (contract : TypeIdx)
  | satisfies (v : Value) (contract : TypeIdx)
  | explain (ty : ImplType) (contract : TypeIdx)
  | convert (v : Value) (contract : TypeIdx)
  | convertStatic (ty : ImplType) (contract : TypeIdx)
  | adapterType (ty : ImplType) (contract : TypeIdx)
  | clearCache

/-- What a provider replies when it does not fail. -/
inductive Reply
  | truth (b : Bool)
  | matched (result : MatchResult)
  | adapter (a : Adapter)
  | adapterType (a : AdapterType)
  | done

/-- The adapter type that a reply gives. -/
def Reply.adapterType? : Reply → Option AdapterType
  | .adapter a => some a.type
  | .adapterType a => some a
  | .truth _ | .matched _ | .done => none

/-- What a request comes to. -/
abbrev Outcome := Except ContractError Reply

/-- The call that serves a request. -/
def serve (r : Registry) (config : Config) : Request → Call Reply
  | .check ty contract => do pure (.truth (← Provider.check r config ty contract))
  | .satisfies v contract => do pure (.truth (← Provider.satisfies r config v contract))
  | .explain ty contract => do pure (.matched (← Provider.explain r config ty contract))
  | .convert v contract => do pure (.adapter (← Provider.convert r config v contract))
  | .convertStatic ty contract => do pure (.adapter (← Provider.convertStatic r config ty contract))
  | .adapterType ty contract => do pure (.adapterType (← Provider.adapterType r config ty contract))
  | .clearCache => do
      Provider.clearCache
      pure .done

namespace Request

/-- The key that the request is about. A value that is an instance of no type gives none. -/
def key? : Request → Option CacheKey
  | .check ty contract | .explain ty contract | .convertStatic ty contract
  | .adapterType ty contract => some ⟨ty, contract⟩
  | .satisfies v contract | .convert v contract =>
      v.runtimeType?.map fun ty => ⟨ty, contract⟩
  | .clearCache => none

/-- The outcome for a result that its type and contract have, and the adapter type that goes with
it. -/
def answer (q : Request) (result : MatchResult) (a : AdapterType) : Outcome :=
  let unsatisfied : ContractError :=
    .unsatisfied result.typeName result.contractName result.issues
  match q with
  | .check _ _ | .satisfies _ _ => .ok (.truth result.satisfied)
  | .explain _ _ => .ok (.matched result)
  | .convert v _ => if result.satisfied then .ok (.adapter ⟨a, some v⟩) else .error unsatisfied
  | .convertStatic _ _ =>
      if !result.staticOnly then .error (.instanceRequired result.contractName)
      else if result.satisfied then .ok (.adapter ⟨a, none⟩)
      else .error unsatisfied
  | .adapterType _ _ => if result.satisfied then .ok (.adapterType a) else .error unsatisfied
  | .clearCache => .ok .done

/-- The outcome when there is no key. -/
def keyless : Request → Outcome
  | .convert v _ => .error (.noRuntimeType v)
  | .satisfies _ _ => .ok (.truth false)
  | _ => .ok .done

end Request

/-! ## Serving is a series of moves -/

section

variable (r : Registry) (config : Config)

theorem along_lookup (ty : ImplType) (contract : TypeIdx) :
    Along id (Move (Matches r config)) (lookup r config ty contract) := by
  intro s
  cases h : lookup r config ty contract s with
  | ok entry s' =>
      simp only [endState, h]
      exact .single (move_of_lookup_ok r config ty contract s h).1
  | error e s' =>
      simp only [endState, h, eq_of_lookup_error r config ty contract s h]
      exact .refl

theorem along_adapterType (ty : ImplType) (contract : TypeIdx) :
    Along id (Move (Matches r config)) (adapterType r config ty contract) := by
  intro s
  rcases moves_of_adapterType r config ty contract s with
    ⟨a, s', hok, hmoves, -⟩ | ⟨e, s', herror, hmoves⟩
  · simp only [endState, hok]
    exact hmoves
  · simp only [endState, herror]
    exact hmoves

theorem along_check (ty : ImplType) (contract : TypeIdx) :
    Along id (Move (Matches r config)) (check r config ty contract) := by
  refine (along_lookup r config ty contract).bind fun entry => ?_
  cases entry <;> exact .pure _

theorem along_satisfies (v : Value) (contract : TypeIdx) :
    Along id (Move (Matches r config)) (satisfies r config v contract) := by
  unfold satisfies
  split
  · exact along_check r config _ contract
  · exact .pure false

theorem along_convert (v : Value) (contract : TypeIdx) :
    Along id (Move (Matches r config)) (convert r config v contract) := by
  unfold convert
  split
  · exact .throw _
  · exact (along_adapterType r config _ contract).bind fun a => .pure _

theorem along_convertStatic (ty : ImplType) (contract : TypeIdx) :
    Along id (Move (Matches r config)) (convertStatic r config ty contract) := by
  refine (along_lookup r config ty contract).bind fun entry => ?_
  dsimp only
  split
  · exact .throw _
  · exact (along_adapterType r config ty contract).bind fun a => .pure _

/-- Every request but the clearing of the cache is a series of moves. -/
theorem along_serve {q : Request} (hq : q ≠ .clearCache) :
    Along id (Move (Matches r config)) (serve r config q) := by
  cases q with
  | check ty contract => exact (along_check r config ty contract).bind fun b => .pure _
  | satisfies v contract => exact (along_satisfies r config v contract).bind fun b => .pure _
  | explain ty contract =>
      refine Along.bind ?_ fun result => .pure _
      exact (along_lookup r config ty contract).bind fun entry => .pure _
  | convert v contract => exact (along_convert r config v contract).bind fun a => .pure _
  | convertStatic ty contract =>
      exact (along_convertStatic r config ty contract).bind fun a => .pure _
  | adapterType ty contract => exact (along_adapterType r config ty contract).bind fun a => .pure _
  | clearCache => exact absurd rfl hq

/-- Every request keeps what the cache keeps, the clearing of the cache included. -/
theorem keeps_of_serve {found : CacheKey → MatchResult → Prop}
    (weaker : ∀ key result, Matches r config key result → found key result) {s : State}
    (keeps : Keeps found s) (q : Request) : Keeps found (endState (serve r config q) s) := by
  by_cases hq : q = .clearCache
  · subst hq
    have hcleared : endState (serve r config .clearCache) s = { s with cache := s.cache.clear } :=
      rfl
    intro key entry h
    exact absurd (hcleared ▸ h) (by simp [State.stored?, Cache.find?, Cache.clear])
  · exact (Moves.mono weaker (along_serve r config hq s)).keeps keeps

/-- The states that a provider gets into while the registry does not change: it serves requests, and
other providers take numbers. -/
inductive Reached : State → Prop
  | fresh (n : Nat) : Reached { nextId := n }
  | serve {s : State} (before : Reached s) (q : Request) :
      Reached (endState (serve r config q) s)
  | elsewhere {s : State} (before : Reached s) (n : Nat) (later : s.nextId ≤ n) :
      Reached { s with nextId := n }

/-- While the registry does not change, the cache holds what matches give. -/
theorem Reached.keeps {s : State} (h : Reached r config s) : Keeps (Matches r config) s := by
  induction h with
  | fresh n => exact keeps_fresh _ n
  | serve _ q ih => exact keeps_of_serve r config (fun _ _ h => h) ih q
  | elsewhere _ _ _ ih => exact ih

/-! ## Adapter types are handed out published -/

variable {r config}

theorem stored?_of_adapterType {ty : ImplType} {contract : TypeIdx} {s s' : State} {a : AdapterType}
    (h : adapterType r config ty contract s = .ok a s') :
    s'.stored? ⟨ty, contract⟩ = some (.adapter a) := by
  rcases moves_of_adapterType r config ty contract s with
    ⟨a', s'', hok, -, hentry⟩ | ⟨e, s'', herror, -⟩
  · obtain ⟨rfl, rfl⟩ := EStateM.Result.ok.inj (hok.symm.trans h)
    exact hentry
  · exact absurd (herror.symm.trans h) (by simp)

/-- An adapter type that a reply gives is the entry of the request's key from then on. -/
theorem stored?_of_serve {q : Request} {s s' : State} {reply : Reply} {a : AdapterType}
    (h : serve r config q s = .ok reply s') (ha : reply.adapterType? = some a) :
    ∃ key, q.key? = some key ∧ s'.stored? key = some (.adapter a) := by
  cases q with
  | adapterType ty contract =>
      obtain ⟨a', s₁, hadapter, hpure⟩ := ok_of_bind h
      obtain ⟨rfl, rfl⟩ := EStateM.Result.ok.inj hpure
      obtain rfl := Option.some.inj ha
      exact ⟨_, rfl, stored?_of_adapterType hadapter⟩
  | convert v contract =>
      obtain ⟨adapter, s₁, hconvert, hpure⟩ := ok_of_bind h
      obtain ⟨rfl, rfl⟩ := EStateM.Result.ok.inj hpure
      obtain rfl := Option.some.inj ha
      cases hty : v.runtimeType? with
      | none =>
          rw [convert, hty] at hconvert
          exact absurd hconvert (throw_ne_ok _)
      | some ty =>
          rw [convert, hty] at hconvert
          obtain ⟨a', s₂, hadapter, hpure⟩ := ok_of_bind hconvert
          obtain ⟨rfl, rfl⟩ := EStateM.Result.ok.inj hpure
          exact ⟨_, Option.map_eq_some_iff.2 ⟨ty, hty, rfl⟩, stored?_of_adapterType hadapter⟩
  | convertStatic ty contract =>
      obtain ⟨adapter, s₁, hconvert, hpure⟩ := ok_of_bind h
      obtain ⟨rfl, rfl⟩ := EStateM.Result.ok.inj hpure
      obtain rfl := Option.some.inj ha
      obtain ⟨entry, s₂, -, hrest⟩ := ok_of_bind hconvert
      cases hstatic : entry.result.staticOnly with
      | false =>
          simp only [hstatic, Bool.not_false, if_true] at hrest
          exact absurd hrest (throw_ne_ok _)
      | true =>
          simp only [hstatic, Bool.not_true, Bool.false_eq_true, if_false] at hrest
          obtain ⟨a', s₃, hadapter, hpure⟩ := ok_of_bind hrest
          obtain ⟨rfl, rfl⟩ := EStateM.Result.ok.inj hpure
          exact ⟨_, rfl, stored?_of_adapterType hadapter⟩
  | check | satisfies | explain | clearCache =>
      obtain ⟨b, s₁, -, hpure⟩ := ok_of_bind h
      obtain ⟨rfl, -⟩ := EStateM.Result.ok.inj hpure
      exact absurd ha (by simp [Reply.adapterType?])

/-! ## What a request finds -/

variable (r config) in
/-- What the state gives for a key: a result, remembered or matched now, and the adapter type that
the key has or would get. -/
inductive Finds (s : State) (key : CacheKey) : MatchResult → AdapterType → Prop
  | adapter (a : AdapterType) (present : s.stored? key = some (.adapter a))
      (satisfied : a.result.satisfied = true) : Finds s key a.result a
  | matched (result : MatchResult) (present : s.stored? key = some (.matched result)) :
      Finds s key result (s.nextAdapter result)
  | fresh (result : MatchResult) (absent : s.stored? key = none)
      (found : Matches r config key result) : Finds s key result (s.nextAdapter result)

/-- A key gives something unless it has no entry and cannot be matched. -/
theorem finds_or_error {found : CacheKey → MatchResult → Prop} {s : State} (keeps : Keeps found s)
    (key : CacheKey) : (∃ result a, Finds r config s key result a) ∨
      s.stored? key = none ∧ ∃ e, computeMatch r config key.implType key.contract = .error e := by
  cases hentry : s.stored? key with
  | none =>
      cases hmatch : computeMatch r config key.implType key.contract with
      | error e => exact Or.inr ⟨rfl, e, rfl⟩
      | ok result => exact Or.inl ⟨result, _, .fresh result hentry hmatch⟩
  | some entry =>
      cases entry with
      | matched result => exact Or.inl ⟨result, _, .matched result hentry⟩
      | adapter a =>
          have hsat := ((keeps key _ hentry).2 a rfl).1
          exact Or.inl ⟨a.result, a, .adapter a hentry hsat⟩

/-- What a key finds was found for the key, with an adapter type made from that. -/
theorem found_of_finds {found : CacheKey → MatchResult → Prop} {s : State} (keeps : Keeps found s)
    {key : CacheKey} {result : MatchResult} {a : AdapterType}
    (weaker : Matches r config key result → found key result)
    (h : Finds r config s key result a) : found key result ∧ a = .synthesize a.id result := by
  cases h with
  | adapter _ present satisfied =>
      obtain ⟨hfound, hadapter⟩ := keeps key _ present
      exact ⟨hfound, (hadapter a rfl).2⟩
  | matched _ present => exact ⟨(keeps key _ present).1, rfl⟩
  | fresh _ absent hmatch => exact ⟨weaker hmatch, rfl⟩

/-- While the cache holds what matches give, what a key finds is what matching it gives. -/
theorem matches_of_finds {s : State} (keeps : Keeps (Matches r config) s) {key : CacheKey}
    {result : MatchResult} {a : AdapterType} (h : Finds r config s key result a) :
    Matches r config key result ∧ a = .synthesize a.id result :=
  found_of_finds keeps id h

/-- A lookup gives what the key finds, and the key goes on finding it. -/
theorem lookup_of_finds {s : State} {ty : ImplType} {contract : TypeIdx} {result : MatchResult}
    {a : AdapterType} (h : Finds r config s ⟨ty, contract⟩ result a) :
    ∃ entry s', lookup r config ty contract s = .ok entry s' ∧ entry.result = result ∧
      (entry = .adapter a ∧ result.satisfied = true ∨
        entry = .matched result ∧ a = s'.nextAdapter result) ∧
      Finds r config s' ⟨ty, contract⟩ result a := by
  rcases lookup_cases r config ty contract s with
    ⟨entry, hentry, hok⟩ | ⟨habsent, result', hmatch, hok⟩ | ⟨habsent, e, hmatch, -⟩
  · cases h with
    | adapter _ present satisfied =>
        obtain rfl := Option.some.inj (hentry.symm.trans present)
        exact ⟨_, _, hok, rfl, Or.inl ⟨rfl, satisfied⟩, .adapter a hentry satisfied⟩
    | matched _ present =>
        obtain rfl := Option.some.inj (hentry.symm.trans present)
        exact ⟨_, _, hok, rfl, Or.inr ⟨rfl, rfl⟩, .matched result hentry⟩
    | fresh _ absent => exact absurd (hentry.symm.trans absent) (by simp)
  · cases h with
    | adapter _ present => exact absurd (habsent.symm.trans present) (by simp)
    | matched _ present => exact absurd (habsent.symm.trans present) (by simp)
    | fresh _ absent found =>
        obtain rfl := Except.ok.inj (hmatch.symm.trans found)
        have hrecorded : (s.record ⟨ty, contract⟩ result').stored? ⟨ty, contract⟩ =
            some (.matched result') := by
          rw [State.stored?_record absent, if_pos rfl]
        exact ⟨_, _, hok, rfl, Or.inr ⟨rfl, rfl⟩, .matched result' hrecorded⟩
  · cases h with
    | adapter _ present => exact absurd (habsent.symm.trans present) (by simp)
    | matched _ present => exact absurd (habsent.symm.trans present) (by simp)
    | fresh _ absent found => exact absurd (hmatch.symm.trans found) (by simp)

/-- A check of a key that finds a result gives whether the result is satisfied. -/
theorem check_of_finds {s : State} {ty : ImplType} {contract : TypeIdx} {result : MatchResult}
    {a : AdapterType} (h : Finds r config s ⟨ty, contract⟩ result a) :
    outcome (check r config ty contract) s = .ok result.satisfied := by
  obtain ⟨entry, s', hlookup, -, hentry, -⟩ := lookup_of_finds h
  refine (outcome_bind_of_ok hlookup).trans ?_
  rcases hentry with ⟨rfl, hsat⟩ | ⟨rfl, -⟩
  · rw [hsat]
    rfl
  · rfl

theorem explain_of_finds {s : State} {ty : ImplType} {contract : TypeIdx} {result : MatchResult}
    {a : AdapterType} (h : Finds r config s ⟨ty, contract⟩ result a) :
    outcome (explain r config ty contract) s = .ok result := by
  obtain ⟨entry, s', hlookup, rfl, -⟩ := lookup_of_finds h
  exact outcome_bind_of_ok hlookup

/-- The adapter type found is the one handed out, if the result is satisfied. -/
theorem adapterType_of_finds {s : State} {ty : ImplType} {contract : TypeIdx}
    {result : MatchResult} {a : AdapterType} (h : Finds r config s ⟨ty, contract⟩ result a) :
    outcome (adapterType r config ty contract) s =
      if result.satisfied then .ok a
      else .error (.unsatisfied result.typeName result.contractName result.issues) := by
  obtain ⟨entry, s', hlookup, -, hentry, -⟩ := lookup_of_finds h
  unfold outcome
  rw [adapterType_eq, hlookup]
  rcases hentry with ⟨rfl, hsat⟩ | ⟨rfl, rfl⟩
  · simp [hsat]
  · cases hsat : result.satisfied <;> simp [hsat]

theorem convert_of_finds {s : State} {v : Value} {ty : ImplType} {contract : TypeIdx}
    {result : MatchResult} {a : AdapterType} (hv : v.runtimeType? = some ty)
    (h : Finds r config s ⟨ty, contract⟩ result a) :
    outcome (convert r config v contract) s =
      if result.satisfied then .ok ⟨a, some v⟩
      else .error (.unsatisfied result.typeName result.contractName result.issues) := by
  rw [convert, hv, outcome_map, adapterType_of_finds h]
  split <;> rfl

theorem convertStatic_of_finds {s : State} {ty : ImplType} {contract : TypeIdx}
    {result : MatchResult} {a : AdapterType} (h : Finds r config s ⟨ty, contract⟩ result a) :
    outcome (convertStatic r config ty contract) s =
      if !result.staticOnly then .error (.instanceRequired result.contractName)
      else if result.satisfied then .ok ⟨a, none⟩
      else .error (.unsatisfied result.typeName result.contractName result.issues) := by
  -- The first lookup only says whether an instance is needed; the second finds the same.
  obtain ⟨entry, s', hlookup, rfl, -, hagain⟩ := lookup_of_finds h
  refine (outcome_bind_of_ok hlookup).trans ?_
  dsimp only
  split
  · rfl
  · rw [outcome_map, adapterType_of_finds hagain]
    split <;> rfl

/-- Every request is answered from what its key finds. -/
theorem outcome_of_finds {s : State} {q : Request} {key : CacheKey} {result : MatchResult}
    {a : AdapterType} (hkey : q.key? = some key) (h : Finds r config s key result a) :
    outcome (serve r config q) s = q.answer result a := by
  obtain ⟨ty, contract⟩ := key
  cases q with
  | check ty' contract' =>
      obtain ⟨rfl, rfl⟩ := CacheKey.mk.inj (Option.some.inj hkey)
      rw [serve, outcome_map, check_of_finds h]
      rfl
  | satisfies v contract' =>
      obtain ⟨ty', hty, heq⟩ := Option.map_eq_some_iff.1 hkey
      obtain ⟨rfl, rfl⟩ := CacheKey.mk.inj heq
      rw [serve, outcome_map, satisfies, hty, check_of_finds h]
      rfl
  | explain ty' contract' =>
      obtain ⟨rfl, rfl⟩ := CacheKey.mk.inj (Option.some.inj hkey)
      rw [serve, outcome_map, explain_of_finds h]
      rfl
  | convert v contract' =>
      obtain ⟨ty', hty, heq⟩ := Option.map_eq_some_iff.1 hkey
      obtain ⟨rfl, rfl⟩ := CacheKey.mk.inj heq
      rw [serve, outcome_map, convert_of_finds hty h]
      simp only [Request.answer]
      split <;> rfl
  | convertStatic ty' contract' =>
      obtain ⟨rfl, rfl⟩ := CacheKey.mk.inj (Option.some.inj hkey)
      rw [serve, outcome_map, convertStatic_of_finds h]
      simp only [Request.answer]
      split
      · rfl
      · split <;> rfl
  | adapterType ty' contract' =>
      obtain ⟨rfl, rfl⟩ := CacheKey.mk.inj (Option.some.inj hkey)
      rw [serve, outcome_map, adapterType_of_finds h]
      simp only [Request.answer]
      split <;> rfl
  | clearCache => exact absurd hkey (by simp [Request.key?])

/-- A request without a key has the same outcome in every state. -/
theorem outcome_of_keyless {q : Request} (hkey : q.key? = none) (s : State) :
    outcome (serve r config q) s = q.keyless := by
  cases q with
  | satisfies v contract =>
      rw [serve, outcome_map, satisfies, Option.map_eq_none_iff.1 hkey]
      rfl
  | convert v contract =>
      rw [serve, outcome_map, convert, Option.map_eq_none_iff.1 hkey]
      rfl
  | clearCache => rfl
  | check | explain | convertStatic | adapterType => exact absurd hkey (by simp [Request.key?])

/-- A request whose key has no entry and cannot be matched fails as the match does. -/
theorem outcome_of_error {s : State} {q : Request} {key : CacheKey} {e : ContractError}
    (hkey : q.key? = some key) (absent : s.stored? key = none)
    (herror : computeMatch r config key.implType key.contract = .error e) :
    outcome (serve r config q) s = .error e := by
  obtain ⟨ty, contract⟩ := key
  have hlookup : outcome (lookup r config ty contract) s = .error e := by
    rcases lookup_cases r config ty contract s with
      ⟨entry, hentry, -⟩ | ⟨-, result, hmatch, -⟩ | ⟨-, e', hmatch, hfails⟩
    · exact absurd (hentry.symm.trans absent) (by simp)
    · exact absurd (hmatch.symm.trans herror) (by simp)
    · obtain rfl := Except.error.inj (hmatch.symm.trans herror)
      simp only [outcome, hfails]
  have hcheck : outcome (check r config ty contract) s = .error e := outcome_bind_of_error hlookup
  have hadapter : outcome (adapterType r config ty contract) s = .error e :=
    outcome_bind_of_error hlookup
  cases q with
  | satisfies v contract' =>
      obtain ⟨ty', hty, heq⟩ := Option.map_eq_some_iff.1 hkey
      obtain ⟨rfl, rfl⟩ := CacheKey.mk.inj heq
      refine outcome_bind_of_error ?_
      rwa [satisfies, hty]
  | convert v contract' =>
      obtain ⟨ty', hty, heq⟩ := Option.map_eq_some_iff.1 hkey
      obtain ⟨rfl, rfl⟩ := CacheKey.mk.inj heq
      refine outcome_bind_of_error ?_
      rw [convert, hty]
      exact outcome_bind_of_error hadapter
  | clearCache => exact absurd hkey (by simp [Request.key?])
  | check ty' contract' =>
      obtain ⟨rfl, rfl⟩ := CacheKey.mk.inj (Option.some.inj hkey)
      exact outcome_bind_of_error hcheck
  | adapterType ty' contract' =>
      obtain ⟨rfl, rfl⟩ := CacheKey.mk.inj (Option.some.inj hkey)
      exact outcome_bind_of_error hadapter
  | explain ty' contract' | convertStatic ty' contract' =>
      obtain ⟨rfl, rfl⟩ := CacheKey.mk.inj (Option.some.inj hkey)
      exact outcome_bind_of_error (outcome_bind_of_error hlookup)

/-- Adapters are handed out for converted values, and without an instance for contracts of static
methods; the match that the key finds is satisfied. -/
theorem exists_finds_of_adapter {found : CacheKey → MatchResult → Prop} {s : State}
    (keeps : Keeps found s) {q : Request} {a : Adapter}
    (h : outcome (serve r config q) s = .ok (.adapter a)) :
    ∃ key result, Finds r config s key result a.type ∧ result.satisfied = true ∧
      ((∃ v contract, q = .convert v contract ∧ v.runtimeType? = some key.implType ∧
          a.self? = some v) ∨
        ∃ ty contract, q = .convertStatic ty contract ∧ result.staticOnly = true ∧
          a.self? = none) := by
  cases hkey : q.key? with
  | none =>
      rw [outcome_of_keyless hkey] at h
      cases q <;> simp [Request.keyless] at h
  | some key =>
      rcases finds_or_error keeps key with ⟨result, t, hfinds⟩ | ⟨absent, e, herror⟩
      · rw [outcome_of_finds hkey hfinds] at h
        cases q with
        | convert v contract =>
            obtain ⟨ty, hty, rfl⟩ := Option.map_eq_some_iff.1 hkey
            simp only [Request.answer] at h
            split at h
            · rename_i satisfied
              obtain rfl := Reply.adapter.inj (Except.ok.inj h)
              exact ⟨_, result, hfinds, satisfied, Or.inl ⟨v, contract, rfl, hty, rfl⟩⟩
            · exact absurd h (by simp)
        | convertStatic ty contract =>
            simp only [Request.answer] at h
            split at h
            · exact absurd h (by simp)
            · rename_i hstatic
              split at h
              · rename_i satisfied
                obtain rfl := Reply.adapter.inj (Except.ok.inj h)
                exact ⟨_, result, hfinds, satisfied,
                  Or.inr ⟨ty, contract, rfl, by simpa using hstatic, rfl⟩⟩
              · exact absurd h (by simp)
        | adapterType ty contract =>
            simp only [Request.answer] at h
            split at h <;> simp at h
        | check | satisfies | explain | clearCache => simp [Request.answer] at h
      · rw [outcome_of_error hkey absent herror] at h
        exact absurd h (by simp)

end

end Provider

end Contracts
