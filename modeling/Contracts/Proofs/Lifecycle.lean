import Contracts.Proofs.Settling

set_option autoImplicit false

/-! # The life of a cache entry

Providers share one registry and one counter for adapter types, and the registry may change in any
way between requests. What happens in a workspace is a list of events, and `Workspace.orderly_run`
says what holds after any events: each cache holds results under their own keys, an entry only goes
from absent to matched to adapter until its provider's cache is cleared, what it holds is what its
provider goes on answering with, and no two adapter types have one number (`Workspace.Orderly`).

One event touches the cache of one provider at most, and either resets it or does nothing but moves
there (`Workspace.Effect`). Everything else follows from that. -/

namespace Contracts

/-! ## Results under their keys -/

namespace Provider

/-- The result is one of matching the type of the key against the contract of the key, by whatever
registry and configuration. -/
def Found (key : CacheKey) (result : MatchResult) : Prop := ∃ r config, Matches r config key result

theorem found_of_matches {r : Registry} {config : Config} {key : CacheKey} {result : MatchResult}
    (h : Matches r config key result) : Found key result := ⟨r, config, h⟩

theorem Found.belongs {key : CacheKey} {result : MatchResult} (h : Found key result) :
    result.implType = key.implType ∧ result.contract = key.contract := by
  obtain ⟨r, config, h⟩ := h
  obtain ⟨spec, -, hextract, rfl⟩ := matches_iff.1 h
  exact ⟨rfl, r.contract_of_extract hextract⟩

end Provider

namespace Workspace

/-! ## Events -/

/-- What can happen in a workspace. -/
inductive Event
  /-- A new provider is set up under a name. -/
  | create (name : String) (config : Config)
  | request (name : String) (q : Provider.Request)
  | canConvertTo (name : String) (v : Value) (target : TypeRef)
  | convertTo (name : String) (v : Value) (target : TypeRef)
  /-- The registry changes, in whatever way. -/
  | declare (change : Registry.Change Unit)
  /-- A member runs, of an adapter or otherwise. -/
  | eval (run : Registry → Eval Unit)

/-- The provider of the name acts, if there is one. -/
def onProvider {α : Type} (w : Workspace) (name : String) (action : Config → World.Action α) :
    Workspace :=
  match w.provider? name with
  | some p => endState (act name p (action p.config)) w
  | none => w

/-- The workspace after an event. -/
def after (w : Workspace) : Event → Workspace
  | .create name config => w.setProvider name { config }
  | .request name q => w.onProvider name fun config =>
      World.ask fun r => Provider.serve r config q
  | .canConvertTo name v target => w.onProvider name fun config =>
      World.canConvertTo config v target
  | .convertTo name v target => w.onProvider name fun config => World.convertTo config v target
  | .declare change => endState (Workspace.declare change) w
  | .eval run => endState (Workspace.eval run) w

/-- The workspace after several events, one after the other. -/
def run (w : Workspace) (events : List Event) : Workspace := events.foldl after w

/-- What a provider answers to a request now, if there is a provider of the name. -/
def reply? (w : Workspace) (name : String) (q : Provider.Request) : Option Provider.Outcome :=
  (w.provider? name).map fun p =>
    outcome (act name p (World.ask fun r => Provider.serve r p.config q)) w

/-- The state that the provider of a name works on. -/
def state (w : Workspace) (name : String) : Provider.State :=
  ⟨((w.provider? name).map (·.cache)).getD {}, w.nextId⟩

/-- The entry of a key in the cache of a provider. -/
def stored? (w : Workspace) (name : String) (key : CacheKey) : Option CacheEntry :=
  (w.state name).stored? key

/-- Whether the event empties the cache of the provider of a name. -/
def Event.Resets (name : String) : Event → Prop
  | .create other _ => other = name
  | .request other .clearCache => other = name
  | _ => False

/-! ## What one event does -/

theorem provider?_setProvider (w : Workspace) (name other : String) (p : Provider) :
    (w.setProvider name p).provider? other = if other = name then some p else w.provider? other :=
  lookup_replace w.providers name other p

theorem endState_act {α : Type} (w : Workspace) (name : String) (p : Provider)
    (action : World.Action α) :
    endState (act name p action) w = w.leave name p.config (endState action (w.enter p)) := by
  cases h : action (w.enter p) <;> simp only [endState, act, h]

theorem outcome_act {α : Type} (w : Workspace) (name : String) (p : Provider)
    (action : World.Action α) :
    outcome (act name p action) w = outcome action (w.enter p) := by
  cases h : action (w.enter p) <;> simp only [outcome, act, h]

/-- After an action the provider is where the action left it; of the other providers only the
counter they share can have changed. -/
theorem state_leave (w : Workspace) (name other : String) (config : Config) (after : World) :
    (w.leave name config after).state other =
      if other = name then after.provider
      else { w.state other with nextId := after.provider.nextId } := by
  unfold state leave
  rw [provider?_setProvider]
  split <;> rfl

theorem state_onProvider {α : Type} {w : Workspace} {name : String} {p : Provider}
    (h : w.provider? name = some p) (action : Config → World.Action α) (other : String) :
    (w.onProvider name action).state other =
      if other = name then (endState (action p.config) (w.enter p)).provider
      else { w.state other with
        nextId := (endState (action p.config) (w.enter p)).provider.nextId } := by
  unfold onProvider
  rw [h]
  dsimp only
  rw [endState_act, state_leave]

theorem provider_enter {w : Workspace} {name : String} {p : Provider}
    (h : w.provider? name = some p) : (w.enter p).provider = w.state name := by
  simp [enter, state, h]

/-- What an event does to the caches: it leaves all but one provider's alone, and that one it resets
or does nothing but moves on. -/
structure Effect (e : Event) (w w' : Workspace) (name : String) : Prop where
  others : ∀ other, other ≠ name → ∀ key, w'.stored? other key = w.stored? other key
  only : ∀ other, e.Resets other → other = name
  moves : ¬e.Resets name → Provider.Moves Provider.Found (w.state name) (w'.state name)
  reset : e.Resets name → (∀ key, w'.stored? name key = none) ∧ w'.nextId = w.nextId

/-- An event that changes no cache and no counter. -/
theorem effect_of_state_eq {e : Event} {w w' : Workspace} (hno : ∀ name, ¬e.Resets name)
    (h : ∀ name, w'.state name = w.state name) (name : String) : Effect e w w' name where
  others other _ key := by rw [stored?, h, stored?]
  only other hreset := absurd hreset (hno other)
  moves _ := by rw [h]
  reset hreset := absurd hreset (hno name)

/-- An action that does nothing to the cache but moves. -/
theorem effect_of_settles {α : Type} {e : Event} (hno : ∀ name, ¬e.Resets name) (w : Workspace)
    (name : String) {action : Config → World.Action α}
    (h : ∀ config world, World.Settles config world (endState (action config) world)) :
    Effect e w (w.onProvider name action) name := by
  cases hp : w.provider? name with
  | none =>
      have hsame : w.onProvider name action = w := by rw [onProvider, hp]
      exact effect_of_state_eq hno (fun _ => by rw [hsame]) name
  | some p =>
      have hstate := state_onProvider hp action
      refine ⟨fun other hother key => ?_, fun other hreset => absurd hreset (hno other), ?_,
        fun hreset => absurd hreset (hno name)⟩
      · rw [stored?, hstate, if_neg hother]
        rfl
      · intro _
        rw [hstate, if_pos rfl, ← provider_enter hp]
        exact (h p.config (w.enter p)).moves.mono fun _ _ => Provider.found_of_matches

/-- The clearing of a cache. -/
theorem effect_of_clearCache (w : Workspace) (name : String) :
    Effect (.request name .clearCache) w (w.after (.request name .clearCache)) name := by
  cases hp : w.provider? name with
  | none =>
      have hsame : w.after (.request name .clearCache) = w := by rw [after, onProvider, hp]
      rw [hsame]
      refine ⟨fun _ _ _ => rfl, fun _ hreset => hreset.symm, fun hno => absurd rfl hno, fun _ => ?_⟩
      exact ⟨fun key => by simp [stored?, state, hp, Provider.State.stored?, Cache.find?], rfl⟩
  | some p =>
      have hstate := state_onProvider hp
        fun config => World.ask fun r => Provider.serve r config .clearCache
      refine ⟨fun other hother key => ?_, fun _ hreset => hreset.symm,
        fun hno => absurd rfl hno, fun _ => ⟨fun key => ?_, ?_⟩⟩
      · rw [stored?, after, hstate, if_neg hother]
        rfl
      · rw [stored?, after, hstate, if_pos rfl, World.endState_ask]
        rfl
      · have hname := congrArg Provider.State.nextId (hstate name)
        rw [if_pos rfl, World.endState_ask] at hname
        exact hname

/-- Every event has such an effect. -/
theorem exists_effect (w : Workspace) (e : Event) : ∃ name, Effect e w (w.after e) name := by
  cases e with
  | create name config =>
      refine ⟨name, fun other hother key => ?_, fun _ hreset => hreset.symm,
        fun hno => absurd rfl hno, fun _ => ⟨fun key => ?_, rfl⟩⟩
      · simp only [stored?, state, after, provider?_setProvider, if_neg hother]
        rfl
      · simp only [stored?, state, after, provider?_setProvider]
        rfl
  | request name q =>
      refine ⟨name, ?_⟩
      by_cases hq : q = .clearCache
      · exact hq ▸ effect_of_clearCache w name
      · refine effect_of_settles (fun other hreset => ?_) w name fun config world =>
          (World.inPlace_ask fun r => Provider.along_serve r config hq).settles world
        cases q with
        | clearCache => exact hq rfl
        | check | satisfies | explain | convert | convertStatic | adapterType => exact hreset
  | canConvertTo name v target =>
      exact ⟨name, effect_of_settles (fun _ => id) w name fun _ =>
        World.settles_canConvertTo v target⟩
  | convertTo name v target =>
      exact ⟨name, effect_of_settles (fun _ => id) w name fun _ =>
        World.settles_convertTo v target⟩
  | declare change =>
      refine ⟨"", effect_of_state_eq (fun _ => id) (fun name => ?_) ""⟩
      cases h : change w.registry <;> simp only [after, endState, Workspace.declare, h] <;> rfl
  | eval run =>
      refine ⟨"", effect_of_state_eq (fun _ => id) (fun name => ?_) ""⟩
      cases h : run w.registry w.heap <;> simp only [after, endState, Workspace.eval, h] <;> rfl

/-! ## Entries along a run -/

/-- Every cache holds results that were found for their keys, and adapter types made from satisfied
ones. -/
def Kept (w : Workspace) : Prop := ∀ name, Provider.Keeps Provider.Found (w.state name)

theorem kept_after {w : Workspace} (kept : w.Kept) (e : Event) : (w.after e).Kept := by
  obtain ⟨touched, heffect⟩ := w.exists_effect e
  intro name
  by_cases hname : name = touched
  · subst hname
    by_cases hreset : e.Resets name
    -- An empty cache keeps everything.
    · intro key entry h
      exact absurd (((heffect.reset hreset).1 key).symm.trans h) (by simp)
    · exact (heffect.moves hreset).keeps (kept name)
  · intro key entry h
    exact kept name key entry ((heffect.others name hname key).symm.trans h)

theorem kept_run {w : Workspace} (kept : w.Kept) (events : List Event) : (w.run events).Kept := by
  induction events generalizing w with
  | nil => exact kept
  | cons e rest ih => exact ih (kept_after kept e)

/-- The events do not empty the cache of the provider of a name. -/
def Uncleared (name : String) (events : List Event) : Prop := ∀ e ∈ events, ¬e.Resets name

theorem entrySteps_after (w : Workspace) {name : String} {e : Event} (h : ¬e.Resets name)
    (key : CacheKey) : Relation.ReflTransGen Provider.EntryStep (w.stored? name key)
      ((w.after e).stored? name key) := by
  obtain ⟨touched, heffect⟩ := w.exists_effect e
  by_cases hname : name = touched
  · subst hname
    exact Provider.Moves.entry (heffect.moves h) key
  · rw [heffect.others name hname key]

theorem entrySteps_run (w : Workspace) {name : String} {events : List Event}
    (h : Uncleared name events) (key : CacheKey) :
    Relation.ReflTransGen Provider.EntryStep (w.stored? name key)
      ((w.run events).stored? name key) := by
  induction events generalizing w with
  | nil => exact .refl
  | cons e rest ih =>
      have hfirst := entrySteps_after w (h e List.mem_cons_self) key
      exact hfirst.trans (ih (w.after e) fun e' he' => h e' (List.mem_cons_of_mem _ he'))

/-! ## What a provider answers from an entry -/

theorem reply?_eq {w : Workspace} {name : String} {p : Provider} (h : w.provider? name = some p)
    (q : Provider.Request) : w.reply? name q =
      some (outcome (Provider.serve w.registry p.config q) (w.state name)) := by
  rw [reply?, h, Option.map_some, outcome_act, World.outcome_ask, provider_enter h]
  rfl

theorem provider?_of_entry {w : Workspace} {name : String} {key : CacheKey} {entry : CacheEntry}
    (h : w.stored? name key = some entry) : ∃ p, w.provider? name = some p := by
  cases hp : w.provider? name with
  | some p => exact ⟨p, rfl⟩
  | none =>
      refine absurd h ?_
      simp [stored?, state, hp, Provider.State.stored?, Cache.find?]

/-- Whatever the registry has become, a request whose key has an entry is answered from the entry's
result, and from its adapter type if there is one. -/
theorem reply?_of_entry {w : Workspace} (kept : w.Kept) {name : String} {key : CacheKey}
    {entry : CacheEntry} (h : w.stored? name key = some entry) :
    ∃ a, (∀ published, entry = .adapter published → a = published) ∧ ∀ q : Provider.Request,
      q.key? = some key → w.reply? name q = some (q.answer entry.result a) := by
  obtain ⟨p, hp⟩ := provider?_of_entry h
  cases entry with
  | adapter a =>
      have hsatisfied := ((kept name key _ h).2 a rfl).1
      refine ⟨a, fun _ heq => CacheEntry.adapter.inj heq, fun q hkey => ?_⟩
      rw [reply?_eq hp, Provider.outcome_of_finds hkey (.adapter a h hsatisfied)]
      rfl
  | matched result =>
      refine ⟨(w.state name).nextAdapter result, fun _ heq => absurd heq (by simp),
        fun q hkey => ?_⟩
      rw [reply?_eq hp, Provider.outcome_of_finds hkey (.matched result h)]
      rfl

/-- An adapter type that a provider hands out is the entry of its key from then on. -/
theorem stored?_of_reply {w : Workspace} {name : String} {q : Provider.Request}
    {reply : Provider.Reply} {a : AdapterType} (h : w.reply? name q = some (.ok reply))
    (ha : reply.adapterType? = some a) : ∃ key, q.key? = some key ∧
      (w.after (.request name q)).stored? name key = some (.adapter a) := by
  cases hp : w.provider? name with
  | none => exact absurd h (by simp [reply?, hp])
  | some p =>
      rw [reply?_eq hp, Option.some.injEq] at h
      cases hserve : Provider.serve w.registry p.config q (w.state name) with
      | error e s' => simp [outcome, hserve] at h
      | ok reply' s' =>
          obtain rfl : reply' = reply := by simpa [outcome, hserve] using h
          obtain ⟨key, hkey, hentry⟩ := Provider.stored?_of_serve hserve ha
          refine ⟨key, hkey, ?_⟩
          rw [stored?, after, state_onProvider hp, if_pos rfl, World.endState_ask,
            provider_enter hp]
          simp only [enter, endState, hserve, hentry]

/-! ## Adapter types made by an event -/

/-- The event gives a key of a provider an adapter type that it did not have. -/
def Synthesizes (w : Workspace) (e : Event) (name : String) (key : CacheKey) (a : AdapterType) :
    Prop :=
  w.stored? name key ≠ some (.adapter a) ∧ (w.after e).stored? name key = some (.adapter a)

/-- Only the provider that is touched makes adapter types, and only by moves. -/
theorem touched_of_synthesizes {w : Workspace} {e : Event} {touched name : String} {key : CacheKey}
    {a : AdapterType} (heffect : Effect e w (w.after e) touched)
    (h : w.Synthesizes e name key a) : name = touched ∧ ¬e.Resets touched := by
  obtain ⟨hbefore, hafter⟩ := h
  have hname : name = touched := by
    by_contra hother
    exact hbefore ((heffect.others name hother key).symm.trans hafter)
  subst hname
  refine ⟨rfl, fun hreset => ?_⟩
  exact absurd (((heffect.reset hreset).1 key).symm.trans hafter) (by simp)

theorem nextId_le_after (w : Workspace) (e : Event) : w.nextId ≤ (w.after e).nextId := by
  obtain ⟨touched, heffect⟩ := w.exists_effect e
  by_cases hreset : e.Resets touched
  · exact Nat.le_of_eq (heffect.reset hreset).2.symm
  · exact (heffect.moves hreset).numbered.mono

theorem nextId_le_run (w : Workspace) (events : List Event) : w.nextId ≤ (w.run events).nextId := by
  induction events generalizing w with
  | nil => exact Nat.le_refl _
  | cons e rest ih => exact Nat.le_trans (nextId_le_after w e) (ih (w.after e))

/-- The number of an adapter type is among those that the event takes. -/
theorem id_of_synthesizes {w : Workspace} {e : Event} {name : String} {key : CacheKey}
    {a : AdapterType} (h : w.Synthesizes e name key a) :
    w.nextId ≤ a.id ∧ a.id < (w.after e).nextId := by
  obtain ⟨touched, heffect⟩ := w.exists_effect e
  obtain ⟨rfl, hno⟩ := touched_of_synthesizes heffect h
  exact (heffect.moves hno).numbered.taken h

/-- Two adapter types made by one event under one number are made for one key of one provider. -/
theorem eq_of_synthesizes {w : Workspace} {e : Event} {name name' : String} {key key' : CacheKey}
    {a a' : AdapterType} (h : w.Synthesizes e name key a) (h' : w.Synthesizes e name' key' a')
    (hid : a.id = a'.id) : name = name' ∧ key = key' := by
  obtain ⟨touched, heffect⟩ := w.exists_effect e
  obtain ⟨rfl, hno⟩ := touched_of_synthesizes heffect h
  obtain ⟨rfl, -⟩ := touched_of_synthesizes heffect h'
  exact ⟨rfl, (heffect.moves hno).numbered.distinct h h' hid⟩

/-- Every number that an event takes goes to an adapter type that it makes. -/
theorem exists_synthesizes {w : Workspace} {e : Event} {n : Nat} (hle : w.nextId ≤ n)
    (hlt : n < (w.after e).nextId) : ∃ name key a, w.Synthesizes e name key a ∧ a.id = n := by
  obtain ⟨touched, heffect⟩ := w.exists_effect e
  by_cases hreset : e.Resets touched
  · rw [(heffect.reset hreset).2] at hlt
    exact absurd hlt (Nat.not_lt.2 hle)
  · obtain ⟨key, a, hgained, hid⟩ := (heffect.moves hreset).numbered.used hle hlt
    exact ⟨touched, key, a, hgained, hid⟩

/-! ## Order in a workspace -/

/-- What the caches of a workspace are like, and go on to be like whatever happens next. -/
structure Orderly (w : Workspace) : Prop where
  /-- A result is kept under its own type and contract. -/
  keyed : ∀ {name key entry}, w.stored? name key = some entry →
    entry.result.implType = key.implType ∧ entry.result.contract = key.contract
  /-- An adapter type was made from a satisfied result. -/
  satisfied : ∀ {name key a}, w.stored? name key = some (.adapter a) → a.result.satisfied = true
  /-- Until the cache is emptied, an entry only goes from absent to matched to adapter. -/
  advances : ∀ {name future}, Uncleared name future → ∀ key,
    Relation.ReflTransGen Provider.EntryStep (w.stored? name key) ((w.run future).stored? name key)
  /-- Until the cache is emptied, a result once matched is the one explained and checked by. -/
  remembered : ∀ {name key entry}, w.stored? name key = some entry → ∀ {future},
    Uncleared name future →
      (w.run future).reply? name (.explain key.implType key.contract) =
          some (.ok (.matched entry.result)) ∧
        (w.run future).reply? name (.check key.implType key.contract) =
          some (.ok (.truth entry.result.satisfied))
  /-- An adapter type that is handed out is published under the key it was asked for. -/
  published : ∀ {name q reply a}, w.reply? name q = some (.ok reply) →
    reply.adapterType? = some a → ∃ key, q.key? = some key ∧
      (w.after (.request name q)).stored? name key = some (.adapter a)
  /-- Until the cache is emptied, a published adapter type is the one handed out. -/
  shared : ∀ {name key a}, w.stored? name key = some (.adapter a) → ∀ {future},
    Uncleared name future →
      (w.run future).reply? name (.adapterType key.implType key.contract) =
          some (.ok (.adapterType a)) ∧
        (∀ v : Value, v.runtimeType? = some key.implType →
          (w.run future).reply? name (.convert v key.contract) =
            some (.ok (.adapter ⟨a, some v⟩))) ∧
        (w.run future).reply? name (.convertStatic key.implType key.contract) =
          some (if a.result.staticOnly then .ok (.adapter ⟨a, none⟩)
            else .error (.instanceRequired a.result.contractName))
  /-- No two adapter types made by one event have one number. -/
  distinct : ∀ {e name name' key key' a a'}, w.Synthesizes e name key a →
    w.Synthesizes e name' key' a' → a.id = a'.id → name = name' ∧ key = key' ∧ a = a'
  /-- No adapter type made later has the number of one made now. -/
  apart : ∀ {e name key a}, w.Synthesizes e name key a → ∀ {between e' name' key' a'},
    ((w.after e).run between).Synthesizes e' name' key' a' → a.id ≠ a'.id
  /-- No number is given to an adapter type that is then discarded. -/
  accounted : ∀ {e n}, w.nextId ≤ n → n < (w.after e).nextId →
    ∃ name key a, w.Synthesizes e name key a ∧ a.id = n

theorem orderly_of_kept {w : Workspace} (kept : w.Kept) : w.Orderly where
  keyed h := (kept _ _ _ h).1.belongs
  satisfied h := ((kept _ _ _ h).2 _ rfl).1
  advances huncleared key := entrySteps_run w huncleared key
  remembered {name key entry} h {future} huncleared := by
    have hsteps := entrySteps_run w huncleared key
    rw [h] at hsteps
    -- The entry may have become an adapter type since, but its result is the same.
    obtain ⟨later, hlater, hresult⟩ := Provider.result_of_entrySteps hsteps
    obtain ⟨a, -, hanswer⟩ := reply?_of_entry (kept_run kept future) hlater
    rw [← hresult]
    exact ⟨hanswer (.explain _ _) rfl, hanswer (.check _ _) rfl⟩
  published h ha := stored?_of_reply h ha
  shared {name key a} h {future} huncleared := by
    have hsteps := entrySteps_run w huncleared key
    rw [h] at hsteps
    have hlater := Provider.eq_of_entrySteps_adapter hsteps
    have hsatisfied := ((kept name key _ h).2 a rfl).1
    obtain ⟨b, hb, hanswer⟩ := reply?_of_entry (kept_run kept future) hlater
    obtain rfl := hb a rfl
    refine ⟨?_, fun v hv => ?_, ?_⟩
    · rw [hanswer (.adapterType _ _) rfl]
      simp [Provider.Request.answer, CacheEntry.result, hsatisfied]
    · rw [hanswer (.convert v key.contract) (by simp [Provider.Request.key?, hv])]
      simp [Provider.Request.answer, CacheEntry.result, hsatisfied]
    · rw [hanswer (.convertStatic _ _) rfl]
      cases hstatic : b.result.staticOnly <;>
        simp [Provider.Request.answer, CacheEntry.result, hsatisfied, hstatic]
  distinct h h' hid := by
    obtain ⟨rfl, rfl⟩ := eq_of_synthesizes h h' hid
    exact ⟨rfl, rfl, CacheEntry.adapter.inj (Option.some.inj (h.2.symm.trans h'.2))⟩
  apart {e _ _ _} h {between _ _ _ _} h' := by
    -- The counter has passed the first number by the time that the second is taken.
    have hnow := (id_of_synthesizes h).2
    have hlater := (id_of_synthesizes h').1
    have hbetween := nextId_le_run (w.after e) between
    exact Nat.ne_of_lt (Nat.lt_of_lt_of_le hnow (Nat.le_trans hbetween hlater))
  accounted hle hlt := exists_synthesizes hle hlt

/-- **The life of a cache entry.** After any events, from any registry on and with any number of
providers, the caches are in order. -/
theorem orderly_run (registry : Registry) (heap : Heap) (nextId : Nat) (past : List Event) :
    (Workspace.run { registry, heap, nextId } past).Orderly := by
  refine orderly_of_kept (kept_run (fun name => ?_) past)
  exact Provider.keeps_fresh _ nextId

end Workspace

end Contracts
