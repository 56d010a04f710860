import Contracts.Proofs.Computation
import Contracts.Provider

set_option autoImplicit false

/-! # What a provider does to its cache

A call on a provider changes its state in three ways only: it counts a hit, it records the result of
a match under a key that has none, or it publishes an adapter type for a result that is satisfied
(`Provider.Move`). Whatever holds along moves holds along all calls but the clearing of the cache
(`Provider.lookup_cases`, `Provider.moves_of_adapterType`).

Along moves an entry only goes from absent to matched to adapter (`Provider.Move.entry`), the cache
keeps what was found under the right key (`Provider.Keeps`), and the numbers of adapter types are
each given out once (`Provider.Numbered`). -/

namespace Contracts

/-! ## Looking up after a change -/

namespace Cache

/-- A match recorded under a free key is found there. -/
theorem recordMatch_of_absent {c : Cache} {key : CacheKey} (absent : c.find? key = none)
    (result : MatchResult) : (c.recordMatch key result).1 = .matched result ∧
      ∀ other, (c.recordMatch key result).2.find? other =
        if other = key then some (.matched result) else c.find? other := by
  have habsent : Cache.find? { c with stats.matcherRuns := c.stats.matcherRuns + 1 } key = none :=
    absent
  unfold recordMatch
  simp only [habsent, true_and]
  exact fun other => find?_put _ key other _

/-- An adapter type published where there is only a match is found there. -/
theorem publish_of_matched {c : Cache} {key : CacheKey} {result : MatchResult}
    (present : c.find? key = some (.matched result)) (a : AdapterType) :
    (c.publish key a).1 = a ∧ ∀ other, (c.publish key a).2.find? other =
      if other = key then some (.adapter a) else c.find? other := by
  have hpresent : Cache.find? { c with stats.syntheses := c.stats.syntheses + 1 } key =
      some (.matched result) := present
  unfold publish
  simp only [hpresent, true_and]
  exact fun other => find?_put _ key other _

end Cache

namespace Provider

namespace State

/-- The entry of a key. -/
def stored? (s : State) (key : CacheKey) : Option CacheEntry := s.cache.find? key

/-- The state after a lookup that found its entry. -/
def hit (s : State) : State := { s with cache := s.cache.countHit }

/-- The state after recording the result of a match. -/
def record (s : State) (key : CacheKey) (result : MatchResult) : State :=
  { s with cache := (s.cache.recordMatch key result).2 }

/-- The adapter type that the next synthesis makes from a result. -/
def nextAdapter (s : State) (result : MatchResult) : AdapterType := .synthesize s.nextId result

/-- The state after making an adapter type from a result and publishing it. -/
def publish (s : State) (key : CacheKey) (result : MatchResult) : State where
  cache := (s.cache.publish key (s.nextAdapter result)).2
  nextId := s.nextId + 1

theorem stored?_record {s : State} {key : CacheKey} (absent : s.stored? key = none)
    (result : MatchResult) (other : CacheKey) : (s.record key result).stored? other =
      if other = key then some (.matched result) else s.stored? other :=
  (Cache.recordMatch_of_absent absent result).2 other

theorem stored?_publish {s : State} {key : CacheKey} {result : MatchResult}
    (present : s.stored? key = some (.matched result)) (other : CacheKey) :
    (s.publish key result).stored? other =
      if other = key then some (.adapter (s.nextAdapter result)) else s.stored? other :=
  (Cache.publish_of_matched present _).2 other

end State

/-! ## Moves -/

/-- One thing that a call does to the state. A recorded result is one that was `found` for its
key. -/
inductive Move (found : CacheKey → MatchResult → Prop) : State → State → Prop
  | hit (s : State) : Move found s s.hit
  | record (s : State) (key : CacheKey) (result : MatchResult) (absent : s.stored? key = none)
      (fresh : found key result) : Move found s (s.record key result)
  | publish (s : State) (key : CacheKey) (result : MatchResult)
      (present : s.stored? key = some (.matched result)) (satisfied : result.satisfied = true) :
      Move found s (s.publish key result)

/-- Any number of moves. -/
abbrev Moves (found : CacheKey → MatchResult → Prop) : State → State → Prop :=
  Relation.ReflTransGen (Move found)

theorem Move.mono {found found' : CacheKey → MatchResult → Prop}
    (weaker : ∀ key result, found key result → found' key result) {s s' : State}
    (h : Move found s s') : Move found' s s' := by
  cases h with
  | hit => exact .hit s
  | record key result absent fresh => exact .record s key result absent (weaker key result fresh)
  | publish key result present satisfied => exact .publish s key result present satisfied

theorem Moves.mono {found found' : CacheKey → MatchResult → Prop}
    (weaker : ∀ key result, found key result → found' key result) {s s' : State}
    (h : Moves found s s') : Moves found' s s' :=
  Relation.ReflTransGen.mono (fun _ _ hmove => hmove.mono weaker) _ _ h

/-! ## Calls as moves -/

/-- Matching the key's type against the key's contract now gives the result. -/
def Matches (r : Registry) (config : Config) (key : CacheKey) (result : MatchResult) : Prop :=
  computeMatch r config key.implType key.contract = .ok result

/-- A public type is matched against the operations of a contract in shape. -/
theorem matches_iff {r : Registry} {config : Config} {key : CacheKey} {result : MatchResult} :
    Matches r config key result ↔ ∃ spec, r.isPublic key.implType = true ∧
      r.extract key.contract = .ok spec ∧ result = r.matchSpec config key.implType spec := by
  unfold Matches computeMatch
  cases r.isPublic key.implType with
  | false => simp
  | true => cases r.extract key.contract <;> simp [eq_comm]

section

variable (r : Registry) (config : Config) (ty : ImplType) (contract : TypeIdx) (s : State)

/-- A lookup finds an entry, or records a fresh match, or fails and changes nothing. -/
theorem lookup_cases :
    (∃ entry, s.stored? ⟨ty, contract⟩ = some entry ∧
        lookup r config ty contract s = .ok entry s.hit) ∨
      (s.stored? ⟨ty, contract⟩ = none ∧ ∃ result, Matches r config ⟨ty, contract⟩ result ∧
        lookup r config ty contract s =
          .ok (.matched result) (s.record ⟨ty, contract⟩ result)) ∨
      (s.stored? ⟨ty, contract⟩ = none ∧ ∃ e, computeMatch r config ty contract = .error e ∧
        lookup r config ty contract s = .error e s) := by
  have hget : (get : Call State) s = .ok s s := rfl
  rw [lookup, bind_of_ok hget]
  cases hentry : s.cache.find? ⟨ty, contract⟩ with
  | some entry => exact Or.inl ⟨entry, hentry, rfl⟩
  | none =>
      cases hmatch : computeMatch r config ty contract with
      | error e => exact Or.inr (Or.inr ⟨hentry, e, rfl, rfl⟩)
      | ok result =>
          have hrecord := (Cache.recordMatch_of_absent hentry result).1
          refine Or.inr (Or.inl ⟨hentry, result, hmatch, ?_⟩)
          exact congrArg (EStateM.Result.ok · (s.record ⟨ty, contract⟩ result)) hrecord

/-- What a lookup gives is what the key has from then on. -/
theorem move_of_lookup_ok {entry : CacheEntry} {s' : State}
    (h : lookup r config ty contract s = .ok entry s') :
    Move (Matches r config) s s' ∧ s'.stored? ⟨ty, contract⟩ = some entry := by
  rcases lookup_cases r config ty contract s with
    ⟨found, hentry, hok⟩ | ⟨habsent, result, hmatch, hok⟩ | ⟨-, e, -, herror⟩
  · rw [hok] at h
    obtain ⟨rfl, rfl⟩ := EStateM.Result.ok.inj h
    exact ⟨.hit s, hentry⟩
  · rw [hok] at h
    obtain ⟨rfl, rfl⟩ := EStateM.Result.ok.inj h
    refine ⟨.record s _ result habsent hmatch, ?_⟩
    rw [State.stored?_record habsent, if_pos rfl]
  · rw [herror] at h
    exact absurd h (by simp)

theorem eq_of_lookup_error {e : ContractError} {s' : State}
    (h : lookup r config ty contract s = .error e s') : s' = s := by
  rcases lookup_cases r config ty contract s with
    ⟨found, -, hok⟩ | ⟨-, result, -, hok⟩ | ⟨-, e', -, herror⟩
  · rw [hok] at h
    exact absurd h (by simp)
  · rw [hok] at h
    exact absurd h (by simp)
  · rw [herror] at h
    exact (EStateM.Result.error.inj h).2.symm

/-- The adapter type of a key, as a case distinction on what is looked up. -/
theorem adapterType_eq : adapterType r config ty contract s =
    match lookup r config ty contract s with
    | .error e s' => .error e s'
    | .ok (.adapter a) s' => .ok a s'
    | .ok (.matched result) s' =>
        if result.satisfied then
          .ok (s'.nextAdapter result) (s'.publish ⟨ty, contract⟩ result)
        else .error (.unsatisfied result.typeName result.contractName result.issues) s' := by
  have hbind : adapterType r config ty contract s =
      match lookup r config ty contract s with
      | .error e s' => .error e s'
      | .ok (.adapter a) s' => .ok a s'
      | .ok (.matched result) s' =>
          if result.satisfied then
            .ok (s'.cache.publish ⟨ty, contract⟩ (s'.nextAdapter result)).1
              (s'.publish ⟨ty, contract⟩ result)
          else .error (.unsatisfied result.typeName result.contractName result.issues) s' := by
    unfold adapterType
    simp only [bind, EStateM.bind]
    cases lookup r config ty contract s with
    | error e s' => rfl
    | ok entry s' =>
        cases entry with
        | adapter a => rfl
        | matched result => cases hsat : result.satisfied <;> simp [hsat] <;> rfl
  rw [hbind]
  cases hlookup : lookup r config ty contract s with
  | error e s' => rfl
  | ok entry s' =>
      cases entry with
      | adapter a => rfl
      | matched result =>
          have hpresent := (move_of_lookup_ok r config ty contract s hlookup).2
          simp only [(Cache.publish_of_matched hpresent _).1]

/-- Asking for an adapter type is a series of moves, after which the key has the adapter type that
was given. -/
theorem moves_of_adapterType :
    (∃ a s', adapterType r config ty contract s = .ok a s' ∧ Moves (Matches r config) s s' ∧
        s'.stored? ⟨ty, contract⟩ = some (.adapter a)) ∨
      (∃ e s', adapterType r config ty contract s = .error e s' ∧
        Moves (Matches r config) s s') := by
  rw [adapterType_eq]
  cases hlookup : lookup r config ty contract s with
  | error e s' =>
      obtain rfl := eq_of_lookup_error r config ty contract s hlookup
      exact Or.inr ⟨e, s', rfl, .refl⟩
  | ok entry s' =>
      obtain ⟨hmove, hentry⟩ := move_of_lookup_ok r config ty contract s hlookup
      cases entry with
      | adapter a => exact Or.inl ⟨a, s', rfl, .single hmove, hentry⟩
      | matched result =>
          cases hsat : result.satisfied with
          | false =>
              refine Or.inr ⟨.unsatisfied result.typeName result.contractName result.issues, s',
                ?_, .single hmove⟩
              simp [hsat]
          | true =>
              refine Or.inl ⟨s'.nextAdapter result, s'.publish ⟨ty, contract⟩ result,
                by simp [hsat], .tail (.single hmove) (.publish s' _ result hentry hsat), ?_⟩
              rw [State.stored?_publish hentry, if_pos rfl]

end

/-! ## What moves keep -/

/-- Every entry holds a result that was found for its key; an adapter type was made from its result,
which is satisfied. -/
def Keeps (found : CacheKey → MatchResult → Prop) (s : State) : Prop :=
  ∀ key entry, s.stored? key = some entry → found key entry.result ∧
    ∀ a, entry = .adapter a → a.result.satisfied = true ∧ a = .synthesize a.id a.result

theorem keeps_fresh (found : CacheKey → MatchResult → Prop) (n : Nat) : Keeps found ⟨{}, n⟩ := by
  intro key entry h
  exact absurd h (by simp [State.stored?, Cache.find?])

theorem Move.keeps {found : CacheKey → MatchResult → Prop} {s s' : State} (h : Move found s s')
    (keeps : Keeps found s) : Keeps found s' := by
  intro key entry hentry
  cases h with
  | hit => exact keeps key entry hentry
  | record at_ result absent fresh =>
      rw [State.stored?_record absent] at hentry
      split at hentry
      · rename_i heq
        obtain rfl := Option.some.inj hentry
        subst heq
        exact ⟨fresh, fun a ha => absurd ha (by simp)⟩
      · exact keeps key entry hentry
  | publish at_ result present satisfied =>
      rw [State.stored?_publish present] at hentry
      split at hentry
      · rename_i heq
        obtain rfl := Option.some.inj hentry
        subst heq
        refine ⟨(keeps key _ present).1, ?_⟩
        rintro a ha
        obtain rfl := CacheEntry.adapter.inj ha
        exact ⟨satisfied, rfl⟩
      · exact keeps key entry hentry

theorem Moves.keeps {found : CacheKey → MatchResult → Prop} {s s' : State} (h : Moves found s s')
    (keeps : Keeps found s) : Keeps found s' := by
  induction h with
  | refl => exact keeps
  | tail _ hmove ih => exact hmove.keeps ih

/-- The way of an entry: from absent to matched, and on to an adapter type made from the match. -/
inductive EntryStep : Option CacheEntry → Option CacheEntry → Prop
  | record (result : MatchResult) : EntryStep none (some (.matched result))
  | publish (a : AdapterType) (satisfied : a.result.satisfied = true) :
      EntryStep (some (.matched a.result)) (some (.adapter a))

/-- The entry of each key goes its way. -/
theorem Move.entry {found : CacheKey → MatchResult → Prop} {s s' : State} (h : Move found s s')
    (key : CacheKey) : Relation.ReflTransGen EntryStep (s.stored? key) (s'.stored? key) := by
  cases h with
  | hit => exact .refl
  | record at_ result absent fresh =>
      rw [State.stored?_record absent]
      split
      · rename_i heq
        subst heq
        rw [absent]
        exact .single (.record result)
      · exact .refl
  | publish at_ result present satisfied =>
      rw [State.stored?_publish present]
      split
      · rename_i heq
        subst heq
        rw [present]
        exact .single (.publish (s.nextAdapter result) satisfied)
      · exact .refl

theorem Moves.entry {found : CacheKey → MatchResult → Prop} {s s' : State} (h : Moves found s s')
    (key : CacheKey) : Relation.ReflTransGen EntryStep (s.stored? key) (s'.stored? key) := by
  induction h with
  | refl => exact .refl
  | tail _ hmove ih => exact ih.trans (hmove.entry key)

/-- An adapter type stays. -/
theorem eq_of_entrySteps_adapter {a : AdapterType} {entry : Option CacheEntry}
    (h : Relation.ReflTransGen EntryStep (some (.adapter a)) entry) :
    entry = some (.adapter a) := by
  induction h with
  | refl => rfl
  | tail _ hstep ih =>
      subst ih
      cases hstep

/-- The result of a match stays, whether an adapter type is made from it or not. -/
theorem result_of_entrySteps {before : CacheEntry} {entry : Option CacheEntry}
    (h : Relation.ReflTransGen EntryStep (some before) entry) :
    ∃ after, entry = some after ∧ after.result = before.result := by
  induction h with
  | refl => exact ⟨before, rfl, rfl⟩
  | tail _ hstep ih =>
      obtain ⟨middle, rfl, hresult⟩ := ih
      cases hstep with
      | publish a satisfied => exact ⟨.adapter a, rfl, hresult⟩

/-! ## Numbers of adapter types -/

/-- Between two states, a key got an adapter type. -/
def Gained (s s' : State) (key : CacheKey) (a : AdapterType) : Prop :=
  s.stored? key ≠ some (.adapter a) ∧ s'.stored? key = some (.adapter a)

/-- The numbers taken between two states are those of the adapter types gained, and no two keys
gained the same number. -/
structure Numbered (s s' : State) : Prop where
  mono : s.nextId ≤ s'.nextId
  taken : ∀ {key a}, Gained s s' key a → s.nextId ≤ a.id ∧ a.id < s'.nextId
  distinct : ∀ {key key' a a'}, Gained s s' key a → Gained s s' key' a' → a.id = a'.id → key = key'
  used : ∀ {n}, s.nextId ≤ n → n < s'.nextId → ∃ key a, Gained s s' key a ∧ a.id = n

theorem not_gained_self {s : State} {key : CacheKey} {a : AdapterType} : ¬Gained s s key a :=
  fun h => h.1 h.2

theorem Numbered.refl (s : State) : Numbered s s where
  mono := Nat.le_refl _
  taken h := absurd h not_gained_self
  distinct h := absurd h not_gained_self
  used hle hlt := absurd hlt (Nat.not_lt.2 hle)

/-- What a published adapter type adds to the gain: itself, and nothing else. -/
theorem gained_publish_iff {s s' : State} {at_ : CacheKey} {result : MatchResult}
    (entries : ∀ key, Relation.ReflTransGen EntryStep (s.stored? key) (s'.stored? key))
    (present : s'.stored? at_ = some (.matched result)) (key : CacheKey) (a : AdapterType) :
    Gained s (s'.publish at_ result) key a ↔
      Gained s s' key a ∨ key = at_ ∧ a = s'.nextAdapter result := by
  unfold Gained
  rw [State.stored?_publish present]
  by_cases hkey : key = at_
  · subst hkey
    rw [if_pos rfl, present]
    constructor
    · rintro ⟨-, hafter⟩
      exact Or.inr ⟨rfl, (CacheEntry.adapter.inj (Option.some.inj hafter)).symm⟩
    · rintro (⟨-, hmatched⟩ | ⟨-, rfl⟩)
      · exact absurd (Option.some.inj hmatched) (by simp)
      · refine ⟨fun hbefore => ?_, rfl⟩
        -- An adapter type from before would have stayed, but the key is only matched now.
        have hstays := eq_of_entrySteps_adapter (hbefore ▸ entries key)
        exact absurd (Option.some.inj (present.symm.trans hstays)) (by simp)
  · simp [hkey]

/-- A move numbers at most one adapter type, with the next number. -/
theorem Move.numbered {found : CacheKey → MatchResult → Prop} {s s' t : State}
    (before : Numbered s s')
    (entries : ∀ key, Relation.ReflTransGen EntryStep (s.stored? key) (s'.stored? key))
    (h : Move found s' t) : Numbered s t := by
  cases h with
  | hit => exact ⟨before.mono, before.taken, before.distinct, before.used⟩
  | record at_ result absent fresh =>
      -- A recorded match is no adapter type, so nothing is gained by it.
      have hgained : ∀ {key a}, Gained s (s'.record at_ result) key a ↔ Gained s s' key a := by
        intro key a
        unfold Gained
        rw [State.stored?_record absent]
        by_cases hkey : key = at_
        · subst hkey
          simp [absent]
        · simp [hkey]
      refine ⟨before.mono, fun h => before.taken (hgained.1 h), ?_, ?_⟩
      · exact fun h h' => before.distinct (hgained.1 h) (hgained.1 h')
      · intro n hle hlt
        obtain ⟨key, a, hga, hid⟩ := before.used hle hlt
        exact ⟨key, a, hgained.2 hga, hid⟩
  | publish at_ result present satisfied =>
      have hgained := gained_publish_iff entries present
      refine ⟨Nat.le_succ_of_le before.mono, ?_, ?_, ?_⟩
      · intro key a h
        rcases (hgained key a).1 h with hold | ⟨-, rfl⟩
        · exact ⟨(before.taken hold).1, Nat.lt_succ_of_lt (before.taken hold).2⟩
        · exact ⟨before.mono, Nat.lt_succ_self _⟩
      · intro key key' a a' h h' hid
        -- Numbers taken before are below the one taken now.
        rcases (hgained key a).1 h with hold | ⟨rfl, rfl⟩ <;>
          rcases (hgained key' a').1 h' with hold' | ⟨rfl, rfl⟩
        · exact before.distinct hold hold' hid
        · exact absurd hid (Nat.ne_of_lt (before.taken hold).2)
        · exact absurd hid (Nat.ne_of_gt (before.taken hold').2)
        · rfl
      · intro n hle hlt
        rcases Nat.lt_succ_iff_lt_or_eq.1 hlt with hlt | rfl
        · obtain ⟨key, a, hga, hid⟩ := before.used hle hlt
          exact ⟨key, a, (hgained key a).2 (Or.inl hga), hid⟩
        · exact ⟨at_, _, (hgained at_ _).2 (Or.inr ⟨rfl, rfl⟩), rfl⟩

theorem Moves.numbered {found : CacheKey → MatchResult → Prop} {s s' : State}
    (h : Moves found s s') : Numbered s s' := by
  induction h with
  | refl => exact .refl s
  | tail hmoves hmove ih => exact hmove.numbered ih fun key => Moves.entry hmoves key

end Provider

end Contracts
