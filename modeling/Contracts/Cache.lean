import Contracts.Adapter

set_option autoImplicit false

/-! # The cache of a provider

A cache keeps, for each type and contract, the result of matching them, and later the adapter type
made from that result; it counts what was done and what was found. -/

namespace Contracts

/-- In a list of pairs, what replaces the pairs of a key is found under it, and no other key is
affected. -/
theorem lookup_replace {α β : Type} [DecidableEq α] (pairs : List (α × β)) (key other : α)
    (value : β) : ((key, value) :: pairs.filter (·.1 ≠ key)).lookup other =
      if other = key then some value else pairs.lookup other := by
  by_cases h : other = key
  · simp [h]
  · simp only [List.lookup_cons, beq_eq_false_iff_ne.2 h, if_neg h]
    induction pairs with
    | nil => rfl
    | cons first rest ih =>
        obtain ⟨k, v⟩ := first
        by_cases hk : k = key
        · rw [List.filter_cons_of_neg (by simpa using hk), ih]
          have : (other == k) = false := beq_eq_false_iff_ne.2 (hk ▸ h)
          simp [List.lookup_cons, this]
        · rw [List.filter_cons_of_pos (by simpa using hk)]
          simp only [List.lookup_cons, ih]

/-- What an entry is kept under. -/
structure CacheKey where
  implType : ImplType
  contract : TypeIdx
deriving DecidableEq

/-- What is known about a type and a contract. -/
inductive CacheEntry
  /-- They have been matched, with or without success. -/
  | matched (result : MatchResult)
  /-- An adapter type has been made. -/
  | adapter (a : AdapterType)

/-- The result of the match behind an entry. -/
def CacheEntry.result : CacheEntry → MatchResult
  | .matched result => result
  | .adapter a => a.result

/-- What has been counted. A counter of 64 bits would start over after 2 ^ 64 calls, and show these
numbers until then. -/
structure CacheStats where
  matcherRuns : Nat := 0
  syntheses : Nat := 0
  /-- Adapter types made in vain, because there was one already. -/
  discarded : Nat := 0
  hits : Nat := 0
deriving DecidableEq

/-- The entries, each key at most once, and the counters. -/
structure Cache where
  entries : List (CacheKey × CacheEntry) := []
  stats : CacheStats := {}

namespace Cache

/-- The entry of a key. -/
def find? (c : Cache) (key : CacheKey) : Option CacheEntry := c.entries.lookup key

/-- The cache with an entry for a key, in place of the one before if there was one. -/
def put (c : Cache) (key : CacheKey) (entry : CacheEntry) : Cache :=
  { c with entries := (key, entry) :: c.entries.filter (·.1 ≠ key) }

/-- A new entry is found under its key, and no other key is affected. -/
theorem find?_put (c : Cache) (key other : CacheKey) (entry : CacheEntry) :
    (c.put key entry).find? other = if other = key then some entry else c.find? other :=
  lookup_replace c.entries key other entry

/-- Count a lookup that found its entry. -/
def countHit (c : Cache) : Cache := { c with stats.hits := c.stats.hits + 1 }

/-- Record the result of a match; an entry that is there already stays. -/
def recordMatch (c : Cache) (key : CacheKey) (result : MatchResult) : CacheEntry × Cache :=
  let c := { c with stats.matcherRuns := c.stats.matcherRuns + 1 }
  match c.find? key with
  | some entry => (entry, c)
  | none => (.matched result, c.put key (.matched result))

/-- Publish an adapter type; one that is there already stays. -/
def publish (c : Cache) (key : CacheKey) (a : AdapterType) : AdapterType × Cache :=
  let c := { c with stats.syntheses := c.stats.syntheses + 1 }
  match c.find? key with
  | some (.adapter published) =>
      (published, { c with stats.discarded := c.stats.discarded + 1 })
  | _ => (a, c.put key (.adapter a))

/-- Forget all entries, but not what has been counted. -/
def clear (c : Cache) : Cache := { c with entries := [] }

end Cache

end Contracts
