import Contracts.Proofs.Requests

set_option autoImplicit false

/-! # The cache cannot be seen

While the registry does not change, a provider answers every request as a provider would that has
answered none before, up to the numbers of adapter types (`Provider.outcomes_eq_fresh`). A request
is answered from what its key finds, so it is enough that a cache entry holds what a match gives now
(`Provider.Keeps` of `Provider.Matches`), which every request keeps. -/

namespace Contracts

/-- The adapter type without its number. -/
def AdapterType.unnumbered (a : AdapterType) : AdapterType := { a with id := 0 }

namespace Provider

/-- The reply without the number of the adapter type that it gives. -/
def Reply.unnumbered : Reply → Reply
  | .adapter a => .adapter ⟨a.type.unnumbered, a.self?⟩
  | .adapterType a => .adapterType a.unnumbered
  | .truth b => .truth b
  | .matched result => .matched result
  | .done => .done

/-- The outcome up to the numbers of adapter types. -/
def Outcome.unnumbered (o : Outcome) : Outcome := o.map Reply.unnumbered

/-- The outcomes of requests that are served one after the other. -/
def outcomes (r : Registry) (config : Config) : List Request → State → List Outcome
  | [], _ => []
  | q :: rest, s =>
      outcome (serve r config q) s :: outcomes r config rest (endState (serve r config q) s)

variable {r : Registry} {config : Config}

/-- Adapter types that differ in their numbers only are answered with alike. -/
theorem unnumbered_answer (q : Request) (result : MatchResult) {a b : AdapterType}
    (h : a.unnumbered = b.unnumbered) :
    Outcome.unnumbered (q.answer result a) = Outcome.unnumbered (q.answer result b) := by
  cases q with
  | check | satisfies | explain | clearCache => rfl
  | convert v contract =>
      simp only [Request.answer]
      split
      · simp [Outcome.unnumbered, Except.map, Reply.unnumbered, h]
      · rfl
  | convertStatic ty contract =>
      simp only [Request.answer]
      split
      · rfl
      · split
        · simp [Outcome.unnumbered, Except.map, Reply.unnumbered, h]
        · rfl
  | adapterType ty contract =>
      simp only [Request.answer]
      split
      · simp [Outcome.unnumbered, Except.map, Reply.unnumbered, h]
      · rfl

/-- A request to a provider whose cache holds what matches give has the outcome of the same request
to a fresh provider. -/
theorem outcome_eq_fresh {s : State} (keeps : Keeps (Matches r config) s) (q : Request) (n : Nat) :
    Outcome.unnumbered (outcome (serve r config q) s) =
      Outcome.unnumbered (outcome (serve r config q) { nextId := n }) := by
  cases hkey : q.key? with
  | none => rw [outcome_of_keyless hkey, outcome_of_keyless hkey]
  | some key =>
      have habsent : State.stored? { nextId := n } key = none := rfl
      rcases finds_or_error keeps key with ⟨result, a, hfinds⟩ | ⟨hnone, e, herror⟩
      · -- Both answer from the same result, with adapter types made from it under two numbers.
        obtain ⟨hmatch, ha⟩ := matches_of_finds keeps hfinds
        rw [outcome_of_finds hkey hfinds, outcome_of_finds hkey (.fresh result habsent hmatch)]
        refine unnumbered_answer q result ?_
        rw [ha]
        rfl
      · rw [outcome_of_error hkey hnone herror, outcome_of_error hkey habsent herror]

theorem outcomes_eq_of_keeps (requests : List Request) {s : State}
    (keeps : Keeps (Matches r config) s) (n : Nat) :
    (outcomes r config requests s).map Outcome.unnumbered = requests.map fun q =>
      Outcome.unnumbered (outcome (serve r config q) { nextId := n }) := by
  induction requests generalizing s with
  | nil => rfl
  | cons q rest ih =>
      have hrest := ih (keeps_of_serve r config (fun _ _ h => h) keeps q)
      simp only [outcomes, List.map_cons, outcome_eq_fresh keeps q n, hrest]

/-- **The cache is transparent.** Each of any requests served one after the other has the outcome
that it has with a fresh provider, up to the numbers of adapter types. -/
theorem outcomes_eq_fresh (r : Registry) (config : Config) (requests : List Request) (n m : Nat) :
    (outcomes r config requests { nextId := n }).map Outcome.unnumbered = requests.map fun q =>
      Outcome.unnumbered (outcome (serve r config q) { nextId := m }) :=
  outcomes_eq_of_keeps requests (keeps_fresh _ n) m

end Provider

end Contracts
