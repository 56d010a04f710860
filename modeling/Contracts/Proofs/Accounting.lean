import Contracts.Proofs.Course
import Mathlib.Data.Set.Card
import Mathlib.Order.Interval.Finset.Nat

set_option autoImplicit false

/-! # What a provider counts

A provider counts hits, runs of the matcher, syntheses, and adapter types made in vain. What the
counters say after any events is what happened in them (`Workspace.accounted_run`).

Entries and syntheses are counted by moves: one that records a match adds to both entries and runs
of the matcher, and one that publishes takes a number and adds a synthesis (`Provider.Tallies`).
Lookups are counted along the course of a call (`Course.counted_run`). -/

namespace Contracts

/-! ## Entries without repetition -/

namespace Cache

/-- No key has two entries. -/
def Tidy (c : Cache) : Prop := (c.entries.map (·.1)).Nodup

variable {c : Cache} {key : CacheKey}

theorem find?_eq_none_iff : c.find? key = none ↔ key ∉ c.entries.map (·.1) := by
  unfold find?
  rw [List.lookup_eq_none_iff, List.mem_map]
  constructor
  · rintro h ⟨entry, hentry, rfl⟩
    exact absurd (h entry hentry) (by simp)
  · intro h entry hentry
    exact bne_iff_ne.2 fun heq => h ⟨entry, hentry, heq.symm⟩

theorem filter_eq_self_of_absent (absent : c.find? key = none) :
    c.entries.filter (·.1 ≠ key) = c.entries := by
  refine List.filter_eq_self.2 fun entry hentry => decide_eq_true fun heq => ?_
  exact find?_eq_none_iff.1 absent (heq ▸ List.mem_map_of_mem hentry)

theorem length_put_of_absent (absent : c.find? key = none) (entry : CacheEntry) :
    (c.put key entry).entries.length = c.entries.length + 1 := by
  rw [put, filter_eq_self_of_absent absent, List.length_cons]

theorem tidy_put (tidy : c.Tidy) (key : CacheKey) (entry : CacheEntry) :
    (c.put key entry).Tidy := by
  have hfilter : ((c.entries.filter (·.1 ≠ key)).map (·.1)).Sublist (c.entries.map (·.1)) :=
    List.filter_sublist.map _
  refine List.nodup_cons.2 ⟨?_, tidy.sublist hfilter⟩
  simp

/-- What takes the place of an entry is no entry more. -/
theorem length_put_of_present {entry : CacheEntry} (tidy : c.Tidy)
    (present : c.find? key = some entry) (entry' : CacheEntry) :
    (c.put key entry').entries.length = c.entries.length := by
  have hmem : key ∈ c.entries.map (·.1) := by
    by_contra habsent
    exact absurd (present.symm.trans (find?_eq_none_iff.2 habsent)) (by simp)
  have hkeys : (c.entries.filter (·.1 ≠ key)).map (·.1) = (c.entries.map (·.1)).erase key := by
    rw [tidy.erase_eq_filter, List.filter_map]
    refine congrArg _ (List.filter_congr fun entry _ => ?_)
    simp [bne, beq_eq_decide]
  have hlength := congrArg List.length hkeys
  rw [List.length_map, List.length_erase_of_mem hmem, List.length_map] at hlength
  have hpos := List.length_pos_of_mem hmem
  rw [List.length_map] at hpos
  rw [put, List.length_cons, hlength, Nat.sub_add_cancel hpos]

end Cache

namespace Provider

/-! ## Counters in one move -/

namespace State

theorem stats_record (s : State) (key : CacheKey) (result : MatchResult) :
    (s.record key result).cache.stats =
      { s.cache.stats with matcherRuns := s.cache.stats.matcherRuns + 1 } := by
  unfold State.record Cache.recordMatch
  dsimp only
  split <;> rfl

theorem entries_record {s : State} {key : CacheKey} (absent : s.stored? key = none)
    (result : MatchResult) :
    (s.record key result).cache.entries = (s.cache.put key (.matched result)).entries := by
  have habsent : Cache.find? { s.cache with stats.matcherRuns := s.cache.stats.matcherRuns + 1 }
      key = none := absent
  unfold State.record Cache.recordMatch
  simp only [habsent]
  rfl

theorem stats_publish {s : State} {key : CacheKey} {result : MatchResult}
    (present : s.stored? key = some (.matched result)) :
    (s.publish key result).cache.stats =
      { s.cache.stats with syntheses := s.cache.stats.syntheses + 1 } := by
  have hpresent : Cache.find? { s.cache with stats.syntheses := s.cache.stats.syntheses + 1 } key =
      some (.matched result) := present
  unfold State.publish Cache.publish
  simp only [hpresent]
  rfl

theorem entries_publish {s : State} {key : CacheKey} {result : MatchResult}
    (present : s.stored? key = some (.matched result)) :
    (s.publish key result).cache.entries =
      (s.cache.put key (.adapter (s.nextAdapter result))).entries := by
  have hpresent : Cache.find? { s.cache with stats.syntheses := s.cache.stats.syntheses + 1 } key =
      some (.matched result) := present
  unfold State.publish Cache.publish
  simp only [hpresent]
  rfl

end State

/-- Between two states, each run of the matcher made an entry, each number that was taken went into
a synthesis, and no adapter type was made in vain. -/
structure Tallies (s s' : State) : Prop where
  entries : s.cache.Tidy → s'.cache.Tidy ∧
    s'.cache.entries.length + s.cache.stats.matcherRuns =
      s.cache.entries.length + s'.cache.stats.matcherRuns
  syntheses : s'.cache.stats.syntheses + s.nextId = s.cache.stats.syntheses + s'.nextId
  discarded : s'.cache.stats.discarded = s.cache.stats.discarded

theorem Tallies.refl (s : State) : Tallies s s := ⟨fun tidy => ⟨tidy, rfl⟩, rfl, rfl⟩

theorem Tallies.trans {s t u : State} (h : Tallies s t) (h' : Tallies t u) : Tallies s u where
  entries tidy := by
    obtain ⟨hfirst, hlength⟩ := h.entries tidy
    obtain ⟨hsecond, hlength'⟩ := h'.entries hfirst
    exact ⟨hsecond, by omega⟩
  syntheses := by
    have hfirst := h.syntheses
    have hsecond := h'.syntheses
    omega
  discarded := h'.discarded.trans h.discarded

theorem Move.tallies {found : CacheKey → MatchResult → Prop} {s s' : State}
    (h : Move found s s') : Tallies s s' := by
  cases h with
  | hit => exact ⟨fun tidy => ⟨tidy, rfl⟩, rfl, rfl⟩
  | record key result absent fresh =>
      have hstats := s.stats_record key result
      refine ⟨fun tidy => ⟨?_, ?_⟩, by rw [hstats]; rfl, by rw [hstats]⟩
      · have htidy := Cache.tidy_put tidy key (.matched result)
        rwa [Cache.Tidy, State.entries_record absent]
      · rw [State.entries_record absent, Cache.length_put_of_absent absent, hstats]
        exact Nat.add_right_comm _ _ _
  | publish key result present satisfied =>
      have hstats := State.stats_publish present
      refine ⟨fun tidy => ⟨?_, ?_⟩, ?_, by rw [hstats]⟩
      · have htidy := Cache.tidy_put tidy key (.adapter (s.nextAdapter result))
        rwa [Cache.Tidy, State.entries_publish present]
      · rw [State.entries_publish present, Cache.length_put_of_present tidy present, hstats]
      · rw [hstats]
        simp only [State.publish]
        omega

theorem Moves.tallies {found : CacheKey → MatchResult → Prop} {s s' : State}
    (h : Moves found s s') : Tallies s s' := by
  induction h with
  | refl => exact .refl s
  | tail _ hmove ih => exact ih.trans hmove.tallies

/-- As many adapter types are gained between two states as numbers are taken. -/
theorem Numbered.encard_gained {s s' : State} (h : Numbered s s') :
    {a | ∃ key, Gained s s' key a}.encard = (s'.nextId - s.nextId : Nat) := by
  have hinjective : Set.InjOn AdapterType.id {a | ∃ key, Gained s s' key a} := by
    rintro a ⟨key, hgained⟩ a' ⟨key', hgained'⟩ hid
    obtain rfl := h.distinct hgained hgained' hid
    exact CacheEntry.adapter.inj (Option.some.inj (hgained.2.symm.trans hgained'.2))
  have himage : AdapterType.id '' {a | ∃ key, Gained s s' key a} =
      ↑(Finset.Ico s.nextId s'.nextId) := by
    ext n
    simp only [Set.mem_image, Set.mem_ofPred_eq, Finset.coe_Ico, Set.mem_Ico]
    constructor
    · rintro ⟨a, ⟨key, hgained⟩, rfl⟩
      exact h.taken hgained
    · rintro ⟨hle, hlt⟩
      obtain ⟨key, a, hgained, hid⟩ := h.used hle hlt
      exact ⟨a, ⟨key, hgained⟩, hid⟩
  rw [← hinjective.encard_image, himage, Set.encard_coe_eq_coe_finsetCard, Nat.card_Ico]

/-! ## Calls that fail -/

/-- A lookup fails only if the key has no entry and cannot be matched: the type is hidden, or the
contract is not in shape. Nothing is changed then. -/
theorem lookup_error {r : Registry} {config : Config} {ty : ImplType} {contract : TypeIdx}
    {s s' : State} {e : ContractError} (h : lookup r config ty contract s = .error e s') :
    s' = s ∧ s.stored? ⟨ty, contract⟩ = none ∧
      (r.isPublic ty = false ∨ ∃ fault, r.extract contract = .error fault) := by
  refine ⟨eq_of_lookup_error r config ty contract s h, ?_⟩
  rcases lookup_cases r config ty contract s with
    ⟨entry, -, hok⟩ | ⟨-, result, -, hok⟩ | ⟨habsent, e', hmatch, -⟩
  · exact absurd (hok.symm.trans h) (by simp)
  · exact absurd (hok.symm.trans h) (by simp)
  · refine ⟨habsent, ?_⟩
    cases hpublic : r.isPublic ty with
    | false => exact Or.inl rfl
    | true =>
        cases hextract : r.extract contract with
        | error fault => exact Or.inr ⟨fault, rfl⟩
        | ok spec => simp [computeMatch, hpublic, hextract] at hmatch

section

variable {α β : Type} {r : Registry} {config : Config}

/-- If the call fails, it has taken no number. -/
def FailsUnnumbered (call : Call α) : Prop :=
  ∀ s e s', call s = .error e s' → s'.nextId = s.nextId

theorem FailsUnnumbered.map {call : Call α} (h : FailsUnnumbered call) (f : α → β) :
    FailsUnnumbered (call >>= fun a => pure (f a)) := by
  intro s e s' herror
  rcases error_of_bind herror with hfirst | ⟨a, s₁, -, hpure⟩
  · exact h s e s' hfirst
  · exact absurd hpure (by simp [pure, EStateM.pure])

theorem failsUnnumbered_pure (a : α) : FailsUnnumbered (pure a : Call α) :=
  fun _ _ _ h => absurd h (by simp [pure, EStateM.pure])

theorem failsUnnumbered_throw (e : ContractError) : FailsUnnumbered (throw e : Call α) := by
  intro s e' s' h
  obtain ⟨-, rfl⟩ := EStateM.Result.error.inj h
  rfl

/-- A lookup takes no number. -/
theorem failsUnnumbered_lookup_bind {ty : ImplType} {contract : TypeIdx} {f : CacheEntry → Call α}
    (h : ∀ entry, FailsUnnumbered (f entry)) :
    FailsUnnumbered (lookup r config ty contract >>= f) := by
  intro s e s' herror
  rcases error_of_bind herror with hlookup | ⟨entry, s₁, hlookup, hrest⟩
  · rw [eq_of_lookup_error r config ty contract s hlookup]
  · refine (h entry s₁ e s' hrest).trans ?_
    rcases lookup_cases r config ty contract s with
      ⟨found, -, hok⟩ | ⟨-, result, -, hok⟩ | ⟨-, e, -, hfails⟩
    · obtain ⟨-, rfl⟩ := EStateM.Result.ok.inj (hok.symm.trans hlookup)
      rfl
    · obtain ⟨-, rfl⟩ := EStateM.Result.ok.inj (hok.symm.trans hlookup)
      rfl
    · exact absurd (hfails.symm.trans hlookup) (by simp)

theorem synthesize_eq (key : CacheKey) (result : MatchResult) (s : State) :
    synthesize key result s =
      .ok (s.cache.publish key (s.nextAdapter result)).1 (s.publish key result) := rfl

theorem failsUnnumbered_adapterType (ty : ImplType) (contract : TypeIdx) :
    FailsUnnumbered (adapterType r config ty contract) := by
  refine failsUnnumbered_lookup_bind fun entry => ?_
  cases entry with
  | adapter a => exact failsUnnumbered_pure a
  | matched result =>
      dsimp only
      split
      -- What is made is published, without fail.
      · exact fun s e s' herror => absurd herror (by rw [synthesize_eq]; simp)
      · exact failsUnnumbered_throw _

theorem clearCache_eq (s : State) :
    clearCache s = .ok () { s with cache := s.cache.clear } := rfl

theorem failsUnnumbered_check (ty : ImplType) (contract : TypeIdx) :
    FailsUnnumbered (check r config ty contract) := by
  refine failsUnnumbered_lookup_bind fun entry => ?_
  cases entry <;> exact failsUnnumbered_pure _

/-- A request that fails has taken no number. -/
theorem failsUnnumbered_serve (q : Request) : FailsUnnumbered (serve r config q) := by
  cases q with
  | check ty contract => exact (failsUnnumbered_check ty contract).map _
  | satisfies v contract =>
      refine FailsUnnumbered.map ?_ _
      unfold satisfies
      split
      · exact failsUnnumbered_check _ contract
      · exact failsUnnumbered_pure false
  | explain ty contract =>
      refine FailsUnnumbered.map ?_ _
      exact failsUnnumbered_lookup_bind fun entry => failsUnnumbered_pure _
  | convert v contract =>
      refine FailsUnnumbered.map ?_ _
      unfold convert
      split
      · exact failsUnnumbered_throw _
      · exact (failsUnnumbered_adapterType _ contract).map _
  | convertStatic ty contract =>
      refine FailsUnnumbered.map ?_ _
      refine failsUnnumbered_lookup_bind fun entry => ?_
      dsimp only
      split
      · exact failsUnnumbered_throw _
      · exact (failsUnnumbered_adapterType ty contract).map _
  | adapterType ty contract => exact (failsUnnumbered_adapterType ty contract).map _
  | clearCache =>
      refine FailsUnnumbered.map (fun s e s' h => absurd h ?_) fun _ => Reply.done
      rw [clearCache_eq]
      simp

end

end Provider

/-! ## Lookups along a course -/

namespace Course

variable {α β : Type} {config : Config}

/-- How many lookups the counters say there were. -/
def counted (s : Provider.State) : Nat := s.cache.stats.hits + s.cache.stats.matcherRuns

theorem counted_lookup {r : Registry} {key : CacheKey} {s s' : Provider.State} {entry : CacheEntry}
    (h : Provider.lookup r config key.implType key.contract s = .ok entry s') :
    counted s' = counted s + 1 := by
  rcases Provider.lookup_cases r config key.implType key.contract s with
    ⟨found, -, hok⟩ | ⟨-, result, -, hok⟩ | ⟨-, e, -, herror⟩
  · obtain ⟨-, rfl⟩ := EStateM.Result.ok.inj (hok.symm.trans h)
    exact Nat.add_right_comm _ _ _
  · obtain ⟨-, rfl⟩ := EStateM.Result.ok.inj (hok.symm.trans h)
    rw [counted, Provider.State.stats_record]
    rfl
  · exact absurd (herror.symm.trans h) (by simp)

theorem counted_publish (s : Provider.State) (key : CacheKey) (result : MatchResult) :
    counted (s.publish key result) = counted s := by
  unfold counted Provider.State.publish Cache.publish
  dsimp only
  split <;> rfl

/-- A step counts the lookup in it, as a hit or as a match. -/
theorem counted_step {first : Step β} {w w' : World} {b : β} (h : first.run config w = .ok b w') :
    counted w'.provider = counted w.provider + (first.lookups b).length := by
  cases first with
  | lookup key =>
      rw [Step.run] at h
      exact counted_lookup (World.ok_of_ask h)
  | synthesize key result =>
      rw [Step.run] at h
      have hcall := (Provider.synthesize_eq key result w.provider).symm.trans (World.ok_of_ask h)
      rw [← (EStateM.Result.ok.inj hcall).2, counted_publish]
      rfl
  | clear =>
      rw [Step.run] at h
      have hcall := (Provider.clearCache_eq w.provider).symm.trans (World.ok_of_ask h)
      rw [← (EStateM.Result.ok.inj hcall).2]
      rfl
  | aside action frame =>
      have hframe := frame w
      rw [Step.run] at h
      rw [endState, h] at hframe
      rw [hframe]
      rfl

/-- A step that fails leaves the provider alone. -/
theorem provider_of_step_error {first : Step β} {w w' : World} {e : ContractError}
    (h : first.run config w = .error e w') : w'.provider = w.provider := by
  cases first with
  | lookup key =>
      rw [Step.run] at h
      exact Provider.eq_of_lookup_error _ _ _ _ _ (World.error_of_ask h)
  | synthesize key result =>
      rw [Step.run] at h
      have hcall := (Provider.synthesize_eq key result w.provider).symm.trans (World.error_of_ask h)
      exact absurd hcall (by simp)
  | clear =>
      rw [Step.run] at h
      have hcall := (Provider.clearCache_eq w.provider).symm.trans (World.error_of_ask h)
      exact absurd hcall (by simp)
  | aside action frame =>
      have hframe := frame w
      rw [Step.run] at h
      rwa [endState, h] at hframe

/-- The lookups along a course that succeed are counted, each as a hit or as a match. -/
theorem counted_run (c : Course α) (w : World) :
    counted (endState (c.run config) w).provider =
      counted w.provider + (c.lookups config w).length := by
  induction c generalizing w with
  | done a => rfl
  | fail e => rfl
  | step first next ih =>
      cases h : first.run config w with
      | ok b w' =>
          have hrest := ih b w'
          simp only [endState] at hrest ⊢
          rw [run, bind_of_ok h, lookups, h, hrest, counted_step h, List.length_append,
            Nat.add_assoc]
      | error e w' =>
          simp only [endState]
          rw [run, bind_of_error h, lookups, h]
          exact congrArg counted (provider_of_step_error h)

end Course

namespace Workspace

variable {w : Workspace} {name : String}

/-! ## What an event adds -/

/-- The lookups that succeed when the provider of a name takes a course now. -/
def lookupsOf {α : Type} (w : Workspace) (name : String) (c : Course α) :
    List (CacheKey × CacheEntry) :=
  ((w.provider? name).map fun p => c.lookups p.config (w.enter p)).getD []

/-- The lookups by the provider of a name that succeed in an event. -/
def eventLookups (w : Workspace) (name : String) : Event → List (CacheKey × CacheEntry)
  | .request acting q => if acting = name then w.lookupsOf name (.ofRequest q) else []
  | .canConvertTo acting v target =>
      if acting = name then w.lookupsOf name (.canConvertTo v target) else []
  | .convertTo acting v target =>
      if acting = name then w.lookupsOf name (.convertTo v target) else []
  | .create _ _ | .declare _ | .eval _ => []

/-- The lookups by the provider of a name that succeed in events, in order. -/
def lookups (w : Workspace) (name : String) : List Event → List (CacheKey × CacheEntry)
  | [] => []
  | e :: rest => w.eventLookups name e ++ (w.after e).lookups name rest

/-- The provider of a name gets an adapter type, for whatever key, in one of the events. -/
def Publishes (w : Workspace) (name : String) (events : List Event) (a : AdapterType) : Prop :=
  ∃ before e later key, events = before ++ e :: later ∧ (w.run before).Synthesizes e name key a

/-- What the provider of a name has counted. -/
def stats (w : Workspace) (name : String) : CacheStats := (w.state name).cache.stats

/-- The entries that the provider of a name has. -/
def entries (w : Workspace) (name : String) : List (CacheKey × CacheEntry) :=
  (w.state name).cache.entries

theorem cache_of_provider?_eq {w' : Workspace} (h : w'.provider? name = w.provider? name) :
    (w'.state name).cache = (w.state name).cache := by
  rw [state, state, h]

theorem counted_onProvider {α : Type} (w : Workspace) (name acting : String) {c : Course α}
    {action : Config → World.Action α} (h : ∀ config, c.run config = action config) :
    Course.counted ((w.onProvider acting action).state name) = Course.counted (w.state name) +
      (if acting = name then w.lookupsOf name c else []).length := by
  by_cases hname : acting = name
  · subst hname
    rw [if_pos rfl, lookupsOf]
    cases hp : w.provider? acting with
    | none =>
        have hsame : w.onProvider acting action = w := by rw [onProvider, hp]
        rw [hsame]
        rfl
    | some p =>
        rw [state_onProvider hp, if_pos rfl, ← h, Course.counted_run, provider_enter hp]
        rfl
  · rw [if_neg hname, Course.counted,
      cache_of_provider?_eq (provider?_onProvider_of_ne w action (Ne.symm hname))]
    rfl

/-- The lookups in an event are counted. -/
theorem counted_after (w : Workspace) {e : Event} (h : ∀ config, e ≠ .create name config) :
    Course.counted ((w.after e).state name) =
      Course.counted (w.state name) + (w.eventLookups name e).length := by
  have hsame : ∀ {w' : Workspace}, w'.provider? name = w.provider? name →
      Course.counted (w'.state name) = Course.counted (w.state name) := by
    intro w' heq
    rw [Course.counted, cache_of_provider?_eq heq, Course.counted]
  cases e with
  | create other config =>
      refine hsame ?_
      rw [after, provider?_setProvider, if_neg fun heq => h config (by rw [heq])]
  | request acting q =>
      exact counted_onProvider w name acting fun config => Course.run_ofRequest config q
  | canConvertTo acting v target =>
      exact counted_onProvider w name acting fun config => Course.run_canConvertTo config v target
  | convertTo acting v target =>
      exact counted_onProvider w name acting fun config => Course.run_convertTo config v target
  | declare change =>
      refine hsame ?_
      cases hchange : change w.registry <;>
        simp only [after, endState, Workspace.declare, hchange, provider?]
  | eval run =>
      refine hsame ?_
      cases heval : run w.registry w.heap <;>
        simp only [after, endState, Workspace.eval, heval, provider?]

/-- Clearing a cache takes away its entries, and nothing else. -/
theorem state_of_resets {e : Event} (h : ∀ config, e ≠ .create name config)
    (hreset : e.Resets name) :
    (w.after e).state name = { w.state name with cache := (w.state name).cache.clear } := by
  cases e with
  | create other config => exact absurd (by rw [show other = name from hreset]) (h config)
  | request acting q =>
      cases q with
      | clearCache =>
          obtain rfl : acting = name := hreset
          cases hp : w.provider? acting with
          | none =>
              have hsame : w.after (.request acting .clearCache) = w := by
                rw [after, onProvider, hp]
              rw [hsame, state, hp]
              rfl
          | some p =>
              rw [after, state_onProvider hp, if_pos rfl, World.endState_ask, provider_enter hp]
              rfl
      | check | satisfies | explain | convert | convertStatic | adapterType => exact hreset.elim
  | canConvertTo | convertTo | declare | eval => exact hreset.elim

/-- What a cache gets in an event is counted, unless it is cleared in it. -/
theorem tallies_after (w : Workspace) {e : Event} (h : ¬e.Resets name) :
    ((w.after e).state name).cache = (w.state name).cache ∧
        (∀ key a, ¬w.Synthesizes e name key a) ∨
      Provider.Tallies (w.state name) ((w.after e).state name) ∧
        Provider.Numbered (w.state name) ((w.after e).state name) := by
  cases continues_after w h with
  | same hsame =>
      refine Or.inl ⟨cache_of_provider?_eq hsame, fun key a hgained => hgained.1 ?_⟩
      rw [← stored?_of_provider?_eq hsame key]
      exact hgained.2
  | moves p cache _ _ hmoves => exact Or.inr ⟨hmoves.tallies, hmoves.numbered⟩

theorem encard_synthesizes_of_none {e : Event} (h : ∀ key a, ¬w.Synthesizes e name key a) :
    {a | ∃ key, w.Synthesizes e name key a}.encard = 0 := by
  refine Set.encard_eq_zero.2 (Set.eq_empty_iff_forall_notMem.2 ?_)
  rintro a ⟨key, hsynthesizes⟩
  exact h key a hsynthesizes

/-- No adapter type is discarded in an event, and every one that is published is a synthesis. -/
theorem syntheses_after (w : Workspace) {e : Event} (h : ∀ config, e ≠ .create name config) :
    ((w.after e).stats name).discarded = (w.stats name).discarded ∧
      (w.stats name).syntheses + {a | ∃ key, w.Synthesizes e name key a}.encard =
        (((w.after e).stats name).syntheses : ℕ∞) := by
  by_cases hreset : e.Resets name
  · have hstats : (w.after e).stats name = w.stats name := by
      rw [stats, state_of_resets h hreset]
      rfl
    obtain ⟨touched, heffect⟩ := w.exists_effect e
    obtain rfl := heffect.only name hreset
    have hno : ∀ key a, ¬w.Synthesizes e name key a :=
      fun key a h => (touched_of_synthesizes heffect h).2 hreset
    rw [hstats, encard_synthesizes_of_none hno]
    exact ⟨rfl, add_zero _⟩
  · rcases tallies_after w hreset with ⟨hsame, hno⟩ | ⟨htallies, hnumbered⟩
    · rw [stats, stats, hsame, encard_synthesizes_of_none hno]
      exact ⟨rfl, add_zero _⟩
    · refine ⟨htallies.discarded, ?_⟩
      have hgained : {a | ∃ key, w.Synthesizes e name key a}.encard =
          (((w.after e).nextId - w.nextId : Nat) : ℕ∞) := hnumbered.encard_gained
      have hmono : w.nextId ≤ (w.after e).nextId := hnumbered.mono
      have hsyntheses : ((w.after e).stats name).syntheses + w.nextId =
        (w.stats name).syntheses + (w.after e).nextId := htallies.syntheses
      rw [hgained, ← Nat.cast_add]
      exact congrArg _ (by omega)

/-! ## What events add -/

theorem publishes_cons_iff {e : Event} {rest : List Event} {a : AdapterType} :
    w.Publishes name (e :: rest) a ↔
      (∃ key, w.Synthesizes e name key a) ∨ (w.after e).Publishes name rest a := by
  constructor
  · rintro ⟨before, e', later, key, hsplit, h⟩
    cases before with
    | nil =>
        obtain ⟨rfl, rfl⟩ := List.cons.inj hsplit
        exact Or.inl ⟨key, h⟩
    | cons first before =>
        obtain ⟨rfl, rfl⟩ := List.cons.inj hsplit
        exact Or.inr ⟨before, e', later, key, rfl, h⟩
  · rintro (⟨key, h⟩ | ⟨before, e', later, key, rfl, h⟩)
    · exact ⟨[], e, rest, key, rfl, h⟩
    · exact ⟨e :: before, e', later, key, rfl, h⟩

/-- No adapter type is published in two events. -/
theorem encard_publishes_cons (w : Workspace) (name : String) (e : Event) (rest : List Event) :
    {a | w.Publishes name (e :: rest) a}.encard =
      {a | ∃ key, w.Synthesizes e name key a}.encard +
        {a | (w.after e).Publishes name rest a}.encard := by
  have hunion : {a | w.Publishes name (e :: rest) a} =
      {a | ∃ key, w.Synthesizes e name key a} ∪ {a | (w.after e).Publishes name rest a} := by
    ext a
    exact publishes_cons_iff
  rw [hunion]
  refine Set.encard_union_eq (Set.disjoint_left.2 ?_)
  rintro a ⟨key, hnow⟩ ⟨before, e', later, key', -, hlater⟩
  -- The counter has passed the number by the time of the later event.
  have hpassed := nextId_le_run (w.after e) before
  have hlt := (id_of_synthesizes hnow).2
  have hle := (id_of_synthesizes hlater).1
  omega

/-- The provider of the name is not replaced by a new one. -/
def Unreplaced (name : String) (events : List Event) : Prop :=
  ∀ e ∈ events, ∀ config, e ≠ .create name config

theorem stats_run {events : List Event} (h : Unreplaced name events) :
    ((w.run events).stats name).discarded = (w.stats name).discarded ∧
      (w.stats name).syntheses + {a | w.Publishes name events a}.encard =
        (((w.run events).stats name).syntheses : ℕ∞) ∧
      Course.counted ((w.run events).state name) =
        Course.counted (w.state name) + (w.lookups name events).length := by
  induction events generalizing w with
  | nil =>
      have hnone : {a | w.Publishes name [] a} = ∅ := by
        refine Set.eq_empty_iff_forall_notMem.2 ?_
        rintro a ⟨before, e, later, key, hsplit, -⟩
        simp at hsplit
      rw [hnone, Set.encard_empty]
      exact ⟨rfl, add_zero _, rfl⟩
  | cons e rest ih =>
      have hfirst := h e List.mem_cons_self
      obtain ⟨hdiscarded, hsyntheses⟩ := syntheses_after w hfirst
      have hcounted := counted_after w hfirst
      obtain ⟨hdiscarded', hsyntheses', hcounted'⟩ := ih (w := w.after e) fun e' he' =>
        h e' (List.mem_cons_of_mem _ he')
      refine ⟨hdiscarded'.trans hdiscarded, ?_, ?_⟩
      · rw [encard_publishes_cons, ← add_assoc, hsyntheses]
        exact hsyntheses'
      · rw [lookups, List.length_append, ← Nat.add_assoc, ← hcounted]
        exact hcounted'

/-- While a cache is not cleared, each run of the matcher makes an entry. -/
theorem entries_run {future : List Event} (h : Uncleared name future)
    (tidy : (w.state name).cache.Tidy) : ((w.run future).state name).cache.Tidy ∧
      ((w.run future).entries name).length + (w.stats name).matcherRuns =
        (w.entries name).length + ((w.run future).stats name).matcherRuns := by
  induction future generalizing w with
  | nil => exact ⟨tidy, rfl⟩
  | cons e rest ih =>
      have hfirst : ((w.after e).state name).cache.Tidy ∧
          ((w.after e).entries name).length + (w.stats name).matcherRuns =
            (w.entries name).length + ((w.after e).stats name).matcherRuns := by
        rcases tallies_after w (h e List.mem_cons_self) with ⟨hsame, -⟩ | ⟨htallies, -⟩
        · rw [entries, entries, stats, stats, hsame]
          exact ⟨tidy, rfl⟩
        · exact htallies.entries tidy
      obtain ⟨htidy, hrest⟩ := ih (w := w.after e) (fun e' he' => h e' (List.mem_cons_of_mem _ he'))
        hfirst.1
      refine ⟨htidy, ?_⟩
      have hnow := hfirst.2
      change ((w.run (e :: rest)).entries name).length + _ =
        _ + ((w.run (e :: rest)).stats name).matcherRuns at hrest
      omega

/-! ## The account -/

/-- What the counters of a provider say after events, and what can and cannot change them. -/
structure Accounted (w : Workspace) (name : String) (events : List Event) : Prop where
  /-- A lookup that succeeds is a hit or a match. -/
  lookups : ((w.run events).stats name).hits + ((w.run events).stats name).matcherRuns =
    (w.lookups name events).length
  /-- No adapter type is made in vain. -/
  discarded : ((w.run events).stats name).discarded = 0
  /-- The syntheses are as many as the adapter types that were ever published. -/
  syntheses : {a | w.Publishes name events a}.encard = ((w.run events).stats name).syntheses
  /-- No key has two entries. -/
  tidy : (((w.run events).entries name).map (·.1)).Nodup
  /-- Since the cache was last cleared, or since the provider was set up, each run of the matcher
  has made an entry. -/
  entries : ∀ {before later}, events = before ++ later → Uncleared name later →
    (before = [] ∨ ∃ earlier e, before = earlier ++ [e] ∧ e.Resets name) →
      ((w.run events).entries name).length + ((w.run before).stats name).matcherRuns =
        ((w.run events).stats name).matcherRuns
  /-- A lookup fails only for a hidden type or a contract that is not in shape, and then it changes
  nothing. -/
  unfound : ∀ {r config ty contract e s'}, Provider.lookup r config ty contract
    ((w.run events).state name) = .error e s' → s' = (w.run events).state name ∧
      (r.isPublic ty = false ∨ ∃ fault, r.extract contract = .error fault)
  /-- A request that fails, for whatever reason, makes and publishes no adapter type. -/
  refused : ∀ {q e}, (w.run events).reply? name q = some (.error e) →
    (((w.run events).after (.request name q)).stats name).syntheses =
        ((w.run events).stats name).syntheses ∧
      ∀ key a, ¬(w.run events).Synthesizes (.request name q) name key a
  /-- A key that has an adapter type is not matched again until the cache is cleared. -/
  settled : ∀ {key a}, (w.run events).stored? name key = some (.adapter a) →
    ∀ {future}, Uncleared name future → ∀ r config, ∃ s',
      Provider.lookup r config key.implType key.contract
          (((w.run events).run future).state name) = .ok (.adapter a) s' ∧
        s'.cache.stats.matcherRuns = (((w.run events).run future).stats name).matcherRuns

/-- A request that fails publishes nothing. -/
theorem not_synthesizes_of_error {q : Provider.Request} {e : ContractError}
    (h : w.reply? name q = some (.error e)) (key : CacheKey) (a : AdapterType) :
    ¬w.Synthesizes (.request name q) name key a := by
  obtain ⟨p, hp, houtcome⟩ := Option.map_eq_some_iff.1 h
  have hserve := Option.some.inj ((reply?_eq hp q).symm.trans h)
  have hnext : (w.after (.request name q)).nextId = w.nextId := by
    have hstate := congrArg Provider.State.nextId (state_onProvider hp
      (fun config => World.ask fun r => Provider.serve r config q) name)
    rw [if_pos rfl, World.endState_ask, provider_enter hp] at hstate
    refine hstate.trans ?_
    cases hcall : Provider.serve w.registry p.config q (w.state name) with
    | ok reply s' => simp [outcome, hcall] at hserve
    | error e' s' =>
        simp only [enter, endState, hcall]
        exact Provider.failsUnnumbered_serve q _ _ _ hcall
  intro hsynthesizes
  have hid := id_of_synthesizes hsynthesizes
  omega

/-- An adapter type is found as long as the cache is not cleared. -/
theorem lookup_of_adapter {key : CacheKey} {a : AdapterType}
    (h : w.stored? name key = some (.adapter a)) (r : Registry) (config : Config) :
    ∃ s', Provider.lookup r config key.implType key.contract (w.state name) =
      .ok (.adapter a) s' ∧ s'.cache.stats.matcherRuns = (w.stats name).matcherRuns := by
  rcases Provider.lookup_cases r config key.implType key.contract (w.state name) with
    ⟨entry, hentry, hok⟩ | ⟨habsent, -⟩ | ⟨habsent, -⟩
  · obtain rfl := Option.some.inj (hentry.symm.trans h)
    exact ⟨_, hok, rfl⟩
  · exact absurd (habsent.symm.trans h) (by simp)
  · exact absurd (habsent.symm.trans h) (by simp)

theorem run_append (w : Workspace) (before later : List Event) :
    w.run (before ++ later) = (w.run before).run later := List.foldl_append

theorem tidy_run {events : List Event} (h : Unreplaced name events)
    (tidy : (w.state name).cache.Tidy) : ((w.run events).state name).cache.Tidy := by
  induction events generalizing w with
  | nil => exact tidy
  | cons e rest ih =>
      refine ih (w := w.after e) (fun e' he' => h e' (List.mem_cons_of_mem _ he')) ?_
      by_cases hreset : e.Resets name
      · rw [state_of_resets (h e List.mem_cons_self) hreset]
        exact List.nodup_nil
      · have huncleared : Uncleared name [e] := fun e' he' => by
          rwa [List.mem_singleton.1 he']
        exact (entries_run huncleared tidy).1

/-- **What a provider counts.** After any events since a provider was set up, its counters say what
it has done: hits and runs of the matcher are the lookups that succeeded, syntheses are the adapter
types published, no adapter type was discarded, and each run of the matcher since the cache was last
cleared has left an entry. -/
theorem accounted_run (w : Workspace) (name : String) (config : Config) {events : List Event}
    (h : Unreplaced name events) : Accounted (w.after (.create name config)) name events := by
  have hfresh : ((w.after (.create name config)).state name).cache = {} := by
    rw [after, state, provider?_setProvider, if_pos rfl]
    rfl
  have htidy : ((w.after (.create name config)).state name).cache.Tidy := by
    rw [hfresh]
    exact List.nodup_nil
  obtain ⟨hdiscarded, hsyntheses, hcounted⟩ := stats_run (w := w.after (.create name config)) h
  refine ⟨?_, ?_, ?_, tidy_run h htidy, ?_, ?_, ?_, ?_⟩
  · refine hcounted.trans ?_
    rw [Course.counted, hfresh]
    exact Nat.zero_add _
  · rw [hdiscarded, stats, hfresh]
  · rw [← hsyntheses, stats, hfresh]
    exact (zero_add _).symm
  · rintro before later rfl huncleared hbefore
    have hempty : ((w.after (.create name config)).run before).entries name = [] := by
      rcases hbefore with rfl | ⟨earlier, e, rfl, hreset⟩
      · exact congrArg Cache.entries hfresh
      · have hclear := fun config => h e (by simp) config
        rw [run_append, entries]
        exact congrArg (·.cache.entries) (state_of_resets hclear hreset)
    have hsofar : Unreplaced name before := fun e he => h e (List.mem_append_left _ he)
    have hlength := (entries_run huncleared (tidy_run hsofar htidy)).2
    rw [hempty, List.length_nil, Nat.zero_add] at hlength
    rw [run_append]
    exact hlength
  · intro r config ty contract e s' herror
    obtain ⟨hsame, -, hwhy⟩ := Provider.lookup_error herror
    exact ⟨hsame, hwhy⟩
  · intro q e hreply
    have hno := not_synthesizes_of_error hreply
    refine ⟨?_, hno⟩
    have hcreate : ∀ config, Event.request name q ≠ .create name config := by simp
    have hsum := (syntheses_after ((w.after (.create name config)).run events) hcreate).2
    rw [encard_synthesizes_of_none hno, add_zero] at hsum
    exact (Nat.cast_injective hsum).symm
  · intro key a hstored future huncleared r config'
    refine lookup_of_adapter ?_ r config'
    have hsteps := entrySteps_run ((w.after (.create name config)).run events) huncleared key
    rw [hstored] at hsteps
    exact Provider.eq_of_entrySteps_adapter hsteps

/-- The factory is checked, forgotten and converted, with a declaration in between. -/
theorem accounted_run_factory :
    let events : List Event := [.request "main" (.check (.named ⟨1⟩) ⟨0⟩),
      .request "main" .clearCache,
      .declare do let _ ← StandardContract.stringable.declare,
      .request "main" (.convertStatic (.named ⟨1⟩) ⟨0⟩)]
    Unreplaced "main" events ∧
      Accounted (after { registry := factoryRegistry } (.create "main" {})) "main" events := by
  intro events
  have hunreplaced : Unreplaced "main" events := by simp [Unreplaced, events]
  exact ⟨hunreplaced, accounted_run { registry := factoryRegistry } "main" {} hunreplaced⟩

end Workspace

end Contracts
