import Contracts.Proofs.Reachability
import Mathlib.Algebra.BigOperators.Group.Finset.Basic
import Mathlib.Data.List.Chain

set_option autoImplicit false

/-! # Assignability is a preorder

What `Registry.isAssignable` answers can be said without a search (`Registry.StoredAs`): a type is
assignable to itself, to `object`, to what it widens to and, if it is declared, to what it reaches.
This is reflexive and transitive over all types, also across the cases.

A search for a declared type may look at what is pending in any order; a `Registry.Turn` says what
it does with one type. Whatever the order, each turn takes one from the types pending and the links
not yet followed (`Registry.Turn.left`), so a search makes no more turns than the declared types
have links, and one. All the while it has seen only what is reached, and once nothing is pending it
has seen all of it (`Registry.Surveys.turn`). -/

namespace Contracts

/-! ## Widening is transitive -/

/-- A rank that grows with every widening. -/
def IntType.rank (t : IntType) : Nat := 2 * t.width + if t = .char then 0 else 1

theorem IntType.rank_lt_of_widensTo {a b : IntType} (h : a.widensTo b = true) :
    a.rank < b.rank := by
  revert h
  cases a <;> cases b <;> decide

theorem IntType.widensTo_trans {a b c : IntType} (hab : a.widensTo b = true)
    (hbc : b.widensTo c = true) : a.widensTo c = true := by
  have hne : a ≠ c := by
    rintro rfl
    exact Nat.lt_irrefl _ ((rank_lt_of_widensTo hab).trans (rank_lt_of_widensTo hbc))
  simp only [widensTo, Bool.and_eq_true, decide_eq_true_eq] at hab hbc ⊢
  obtain ⟨⟨-, hmin⟩, hmax⟩ := hab
  obtain ⟨⟨⟨-, hchar⟩, hmin'⟩, hmax'⟩ := hbc
  exact ⟨⟨⟨hne, hchar⟩, hmin'.trans hmin⟩, hmax.trans hmax'⟩

theorem Builtin.widensTo_trans {a b c : Builtin} (hab : a.widensTo b = true)
    (hbc : b.widensTo c = true) : a.widensTo c = true := by
  cases a with
  | int s =>
      cases b with
      | int t =>
          cases c with
          | int t' => exact IntType.widensTo_trans hab hbc
          | float t' => rfl
          | bool | str | object | void => simp [widensTo] at hbc
      | float t =>
          cases c with
          | float t' => rfl
          | bool | int | str | object | void => simp [widensTo] at hbc
      | bool | str | object | void => simp [widensTo] at hab
  | float s =>
      -- Only the larger floating type is left to widen to, and it widens to nothing.
      unfold widensTo at hab
      split at hab <;> simp_all [widensTo]
  | bool | str | object | void => simp [widensTo] at hab

theorem Builtin.ne_void_of_widensTo {a b : Builtin} (h : a.widensTo b = true) :
    a ≠ .void ∧ b ≠ .void := by
  constructor <;> (rintro rfl; simp [widensTo] at h)

namespace Registry

variable {r : Registry}

/-! ## Assignability without a search -/

/-- When a value of one type can be stored as one of another. -/
inductive StoredAs (r : Registry) : TypeRef → TypeRef → Prop
  | same (ty : TypeRef) : StoredAs r ty ty
  | object {source : TypeRef} (concrete : source.isParam = false) (something : source ≠ .void) :
      StoredAs r source .object
  | widened {a b : Builtin} (wider : a.widensTo b = true) : StoredAs r (.builtin a) (.builtin b)
  | derived {a b : TypeIdx} (reached : r.Reaches a b) : StoredAs r (.named a) (.named b)

theorem storedAs_of_isAssignable {source target : TypeRef}
    (h : r.isAssignable source target = true) : r.StoredAs source target := by
  by_cases hsame : source = target
  · subst hsame
    exact .same source
  unfold isAssignable at h
  rw [if_neg hsame] at h
  split at h
  · exact absurd h Bool.false_ne_true
  · exact absurd h Bool.false_ne_true
  · exact absurd h Bool.false_ne_true
  · exact absurd h Bool.false_ne_true
  · rename_i hparam hvoid
    refine .object ?_ hvoid
    cases source with
    | param i => exact absurd rfl (hparam i)
    | builtin b => rfl
    | named idx => rfl
  · exact .widened h
  · exact .derived ((r.derivesFrom_iff _ _).1 h)
  · exact absurd h Bool.false_ne_true

/-- The search, the table of widenings and the rules about `object` amount to this. -/
theorem isAssignable_iff {source target : TypeRef} :
    r.isAssignable source target = true ↔ r.StoredAs source target := by
  refine ⟨storedAs_of_isAssignable, fun h => ?_⟩
  cases h with
  | same => exact r.isAssignable_self source
  | object concrete something =>
      cases source with
      | param i => simp [TypeRef.isParam] at concrete
      | builtin b => cases b <;> simp_all [isAssignable]
      | named idx => simp [isAssignable]
  | @widened a b wider =>
      obtain ⟨ha, hb⟩ := Builtin.ne_void_of_widensTo wider
      cases a <;> cases b <;> simp_all [isAssignable]
  | derived reached => exact (r.isAssignable_named_iff _ _).2 reached

theorem StoredAs.trans {a b c : TypeRef} (hab : r.StoredAs a b) (hbc : r.StoredAs b c) :
    r.StoredAs a c := by
  cases hab with
  | same => exact hbc
  | object concrete something =>
      cases hbc with
      | same | object => exact .object concrete something
      | widened wider => simp [Builtin.widensTo] at wider
  | widened wider =>
      cases hbc with
      | same => exact .widened wider
      | object =>
          have hvoid := (Builtin.ne_void_of_widensTo wider).1
          exact .object rfl (by simpa using hvoid)
      | widened wider' => exact .widened (Builtin.widensTo_trans wider wider')
  | derived reached =>
      cases hbc with
      | same => exact .derived reached
      | object => exact .object rfl (by simp)
      | derived reached' => exact .derived (reached.trans reached')

/-! ## Searching in any order -/

/-- A search for a declared type: where it has been and what it has yet to look at. -/
structure Search where
  visited : List TypeIdx
  pending : List TypeIdx

/-- One turn of a search. It takes a pending type that is not the target, whichever it likes, drops
it if it has been there, and else has what the type names to look at too, in any order. -/
inductive Turn (r : Registry) (target : TypeIdx) : Search → Search → Prop
  | again {visited pending rest : List TypeIdx} {idx : TypeIdx}
      (taken : pending.Perm (idx :: rest)) (other : idx ≠ target) (been : idx ∈ visited) :
      Turn r target ⟨visited, pending⟩ ⟨visited, rest⟩
  | first {visited pending rest pending' : List TypeIdx} {idx : TypeIdx}
      (taken : pending.Perm (idx :: rest)) (other : idx ≠ target) (new : idx ∉ visited)
      (added : pending'.Perm (r.links idx ++ rest)) :
      Turn r target ⟨visited, pending⟩ ⟨idx :: visited, pending'⟩

/-- The links of the declared types that have not been visited. -/
def linksAhead (r : Registry) (visited : List TypeIdx) : Nat :=
  ∑ i ∈ Finset.range r.types.size with TypeIdx.mk i ∉ visited, (r.links ⟨i⟩).length

/-- The number of links that declared types have. -/
def linkCount (r : Registry) : Nat := ∑ i ∈ Finset.range r.types.size, (r.links ⟨i⟩).length

theorem linksAhead_nil (r : Registry) : r.linksAhead [] = r.linkCount := by
  simp [linksAhead, linkCount]

/-- A visit takes the links of a type off those ahead; an undeclared type has none. -/
theorem linksAhead_cons {visited : List TypeIdx} {idx : TypeIdx} (new : idx ∉ visited) :
    r.linksAhead (idx :: visited) + (r.links idx).length = r.linksAhead visited := by
  have herase : (Finset.range r.types.size).filter (fun i => TypeIdx.mk i ∉ idx :: visited) =
      ((Finset.range r.types.size).filter fun i => TypeIdx.mk i ∉ visited).erase idx.index := by
    ext i
    simp only [Finset.mem_filter, Finset.mem_erase, List.mem_cons, not_or]
    have hidx : TypeIdx.mk i = idx ↔ i = idx.index := by cases idx; simp
    rw [hidx]
    tauto
  unfold linksAhead
  rw [herase]
  by_cases declared : idx.index < r.types.size
  · have hmem : idx.index ∈ (Finset.range r.types.size).filter fun i => TypeIdx.mk i ∉ visited :=
      Finset.mem_filter.2 ⟨Finset.mem_range.2 declared, new⟩
    exact Finset.sum_erase_add _ _ hmem
  · have hmem : idx.index ∉ (Finset.range r.types.size).filter fun i => TypeIdx.mk i ∉ visited :=
      fun hmem => declared (Finset.mem_range.1 (Finset.mem_filter.1 hmem).1)
    rw [Finset.erase_eq_of_notMem hmem, links, r.successors_eq_nil TypeDef.links declared]
    rfl

/-- What a search has left to do: each pending type, and each link that it may come to follow. -/
def Search.left (r : Registry) (s : Search) : Nat := s.pending.length + r.linksAhead s.visited

variable {target start : TypeIdx} {s s' : Search}

/-- Each turn does one of the things that are left. -/
theorem Turn.left (h : r.Turn target s s') : s'.left r + 1 = s.left r := by
  cases h with
  | again taken _ _ =>
      have hlength := taken.length_eq
      simp only [Search.left, List.length_cons] at hlength ⊢
      omega
  | first taken _ new added =>
      have htaken := taken.length_eq
      have hadded := added.length_eq
      have hlinks := linksAhead_cons (r := r) new
      simp only [Search.left, List.length_cons, List.length_append] at htaken hadded ⊢
      omega

/-- No search makes more turns than there is left to do. -/
theorem length_le_left {turns : List Search} (h : List.IsChain (r.Turn target) (s :: turns)) :
    turns.length ≤ s.left r := by
  induction turns generalizing s with
  | nil => exact Nat.zero_le _
  | cons s' turns ih =>
      obtain ⟨hturn, hrest⟩ := List.isChain_cons_cons.1 h
      have hleft := hturn.left
      have hlength := ih hrest
      rw [List.length_cons]
      omega

/-! ## What a search has seen -/

/-- The links of visited types lead to types that are visited or still pending. -/
def Explored (r : Registry) (visited pending : List TypeIdx) : Prop :=
  ∀ a ∈ visited, ∀ b, r.Linked a b → b ∈ visited ∨ b ∈ pending

namespace Explored

variable {visited pending pending' : List TypeIdx} {idx a b : TypeIdx}

theorem visit (h : r.Explored visited (idx :: pending)) :
    r.Explored (idx :: visited) (r.links idx ++ pending) := by
  intro a ha b hlink
  rcases List.mem_cons.1 ha with rfl | ha
  · exact Or.inr (List.mem_append_left _ hlink)
  · rcases h a ha b hlink with hb | hb
    · exact Or.inl (List.mem_cons_of_mem _ hb)
    · rcases List.mem_cons.1 hb with rfl | hb
      · exact Or.inl List.mem_cons_self
      · exact Or.inr (List.mem_append_right _ hb)

theorem skip (h : r.Explored visited (idx :: pending)) (hmem : idx ∈ visited) :
    r.Explored visited pending := by
  intro a ha b hlink
  rcases h a ha b hlink with hb | hb
  · exact Or.inl hb
  · rcases List.mem_cons.1 hb with rfl | hb
    · exact Or.inl hmem
    · exact Or.inr hb

theorem perm (h : r.Explored visited pending) (same : pending.Perm pending') :
    r.Explored visited pending' :=
  fun a ha b hb => (h a ha b hb).imp id same.mem_iff.1

/-- With nothing pending, what a visited type reaches has been visited. -/
theorem mem_of_reaches (h : r.Explored visited []) (ha : a ∈ visited) (hreach : r.Reaches a b) :
    b ∈ visited := by
  induction hreach with
  | refl => exact ha
  | tail _ hlink ih => exact (h _ ih _ hlink).resolve_right (by simp)

end Explored

/-- The search has seen the type that it started from, only what this reaches, and not yet the
target as a visitor; what it has visited leads to nothing that it has not seen. -/
structure Surveys (r : Registry) (start target : TypeIdx) (s : Search) : Prop where
  started : start ∈ s.visited ∨ start ∈ s.pending
  reached : ∀ idx, idx ∈ s.visited ∨ idx ∈ s.pending → r.Reaches start idx
  explored : r.Explored s.visited s.pending
  missed : target ∉ s.visited

theorem surveys_start (r : Registry) (start target : TypeIdx) :
    r.Surveys start target ⟨[], [start]⟩ where
  started := Or.inr (List.mem_singleton.2 rfl)
  reached := by
    rintro idx (hidx | hidx)
    · exact absurd hidx List.not_mem_nil
    · rw [List.mem_singleton.1 hidx]
  explored := by simp [Explored]
  missed := List.not_mem_nil

theorem Surveys.turn (h : r.Surveys start target s) (hturn : r.Turn target s s') :
    r.Surveys start target s' := by
  cases hturn with
  | @again visited pending rest idx taken other been =>
      have htaken := h.explored.perm taken
      refine ⟨?_, ?_, htaken.skip been, h.missed⟩
      · rcases h.started with hvisited | hpending
        · exact Or.inl hvisited
        · rcases List.mem_cons.1 (taken.mem_iff.1 hpending) with rfl | hrest
          · exact Or.inl been
          · exact Or.inr hrest
      · rintro a (ha | ha)
        · exact h.reached a (Or.inl ha)
        · exact h.reached a (Or.inr (taken.mem_iff.2 (List.mem_cons_of_mem _ ha)))
  | @first visited pending rest pending' idx taken other new added =>
      have hidx : r.Reaches start idx :=
        h.reached idx (Or.inr (taken.mem_iff.2 List.mem_cons_self))
      have hadded := (h.explored.perm taken).visit.perm added.symm
      refine ⟨?_, ?_, hadded, ?_⟩
      · rcases h.started with hvisited | hpending
        · exact Or.inl (List.mem_cons_of_mem _ hvisited)
        · rcases List.mem_cons.1 (taken.mem_iff.1 hpending) with rfl | hrest
          · exact Or.inl List.mem_cons_self
          · exact Or.inr (added.mem_iff.2 (List.mem_append_right _ hrest))
      · rintro a (ha | ha)
        · rcases List.mem_cons.1 ha with rfl | ha
          · exact hidx
          · exact h.reached a (Or.inl ha)
        · rcases List.mem_append.1 (added.mem_iff.1 ha) with hlink | hrest
          · exact hidx.tail hlink
          · exact h.reached a (Or.inr (taken.mem_iff.2 (List.mem_cons_of_mem _ hrest)))
      · rw [List.mem_cons, not_or]
        exact ⟨other.symm, h.missed⟩

/-- What holds at the start of a search, of what each turn keeps, holds all the way. -/
theorem surveys_of_turns {turns : List Search} (hstart : r.Surveys start target s)
    (h : List.IsChain (r.Turn target) (s :: turns)) :
    ∀ s' ∈ s :: turns, r.Surveys start target s' := by
  induction turns generalizing s with
  | nil => simpa using hstart
  | cons next turns ih =>
      obtain ⟨hturn, hrest⟩ := List.isChain_cons_cons.1 h
      exact List.forall_mem_cons.2 ⟨hstart, ih (hstart.turn hturn) hrest⟩

/-- At this point the search decides whether the target is reached: it is if it is pending, and not
if nothing is pending. Otherwise there is another turn to make. -/
structure Decides (r : Registry) (start target : TypeIdx) (s : Search) : Prop where
  found : target ∈ s.pending → r.derivesFrom start target = true
  missing : s.pending = [] → r.derivesFrom start target = false
  onward : target ∉ s.pending → s.pending ≠ [] → ∃ s', r.Turn target s s'

theorem Surveys.decides (h : r.Surveys start target s) : r.Decides start target s where
  found hpending := (r.derivesFrom_iff start target).2 (h.reached target (Or.inr hpending))
  missing hpending := by
    obtain ⟨visited, pending⟩ := s
    obtain rfl : pending = [] := hpending
    have hstarted : start ∈ visited := h.started.resolve_right List.not_mem_nil
    refine Bool.eq_false_iff.2 fun hderives => h.missed ?_
    exact h.explored.mem_of_reaches hstarted ((r.derivesFrom_iff start target).1 hderives)
  onward hnot hpending := by
    obtain ⟨visited, pending⟩ := s
    obtain ⟨idx, rest, rfl⟩ := List.exists_cons_of_ne_nil hpending
    have hother : idx ≠ target := fun heq => hnot (heq ▸ List.mem_cons_self)
    by_cases hbeen : idx ∈ visited
    · exact ⟨_, .again (.refl _) hother hbeen⟩
    · exact ⟨_, .first (.refl _) hother hbeen (.refl _)⟩

/-- **Assignability is declared reachability, and a preorder.** A search among declared types, in
whatever order, comes to an end after at most one turn more than there are links, and decides what
is reached, on any graph of links. Assignability holds exactly of a type and itself, of a type that
is neither a parameter nor `void` and `object`, of a built-in type and one that it widens to, and of
a declared type and one that it reaches. It is reflexive and transitive. -/
theorem isAssignable_preorder (r : Registry) :
    (∀ start target turns, List.IsChain (r.Turn target) (⟨[], [start]⟩ :: turns) →
      turns.length ≤ r.linkCount + 1 ∧
        ∀ s ∈ (⟨[], [start]⟩ : Search) :: turns, r.Decides start target s) ∧
    (∀ source target, r.isAssignable source target = true ↔ r.StoredAs source target) ∧
    (∀ ty, r.isAssignable ty ty = true) ∧
    ∀ a b c, r.isAssignable a b = true → r.isAssignable b c = true →
      r.isAssignable a c = true := by
  refine ⟨fun start target turns hturns => ⟨?_, fun s hs => ?_⟩, fun _ _ => isAssignable_iff,
    r.isAssignable_self, fun a b c hab hbc => ?_⟩
  · have hlength := length_le_left hturns
    rwa [Search.left, linksAhead_nil, List.length_singleton, Nat.add_comm] at hlength
  · exact (surveys_of_turns (r.surveys_start start target) hturns s hs).decides
  · exact isAssignable_iff.2 ((isAssignable_iff.1 hab).trans (isAssignable_iff.1 hbc))

end Registry

end Contracts
