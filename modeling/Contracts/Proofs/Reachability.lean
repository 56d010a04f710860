import Contracts.Contract
import Mathlib.Logic.Relation

set_option autoImplicit false

/-! # Walking in depth-first order

`Registry.walk` keeps one list of what is still to be visited. The order in which it arrives at
positions is that of the walk that visits a position, then each of its successors with all that the
successor leads to, and turns back where it has been before (`Registry.arrivals_iff`). On every
graph, with cycles and diamonds and edges to where nothing is declared, this walk comes to an end,
and it arrives at exactly what is reached (`Registry.mem_walk_iff`).

So the ancestry of a contract is what it inherits from (`Registry.mem_ancestry_iff`), and one
declared type being assignable to another is reachability along the links of declared types, which
is reflexive and transitive (`Registry.isAssignable_named_iff`). -/

namespace Contracts

/-- A walk that has been to `seen` visits the positions of a list from left to right, and arrives at
the ones of `order` for the first time, in this order. On arrival it goes on with what the position
leads to. -/
inductive Arrivals (next : TypeIdx → List TypeIdx) :
    List TypeIdx → List TypeIdx → List TypeIdx → Prop
  | nil (seen : List TypeIdx) : Arrivals next seen [] []
  | again {seen rest order : List TypeIdx} {idx : TypeIdx} (known : idx ∈ seen)
      (later : Arrivals next seen rest order) : Arrivals next seen (idx :: rest) order
  | first {seen rest above later : List TypeIdx} {idx : TypeIdx} (new : idx ∉ seen)
      (up : Arrivals next (idx :: seen) (next idx) above)
      (onward : Arrivals next (above ++ idx :: seen) rest later) :
      Arrivals next seen (idx :: rest) (idx :: above ++ later)

/-- One position leads to another, in any number of steps. -/
abbrev LeadsTo (next : TypeIdx → List TypeIdx) : TypeIdx → TypeIdx → Prop :=
  Relation.ReflTransGen fun a b => b ∈ next a

variable {next next' : TypeIdx → List TypeIdx} {seen seen' pending a b order : List TypeIdx}

namespace Arrivals

/-! ## The order is determined -/

/-- It only matters where the walk has been, not when. -/
theorem congr (h : Arrivals next seen pending order) (same : ∀ c, c ∈ seen ↔ c ∈ seen') :
    Arrivals next seen' pending order := by
  induction h generalizing seen' with
  | nil seen => exact .nil seen'
  | again known _ ih => exact .again ((same _).1 known) (ih same)
  | first new _ _ up onward =>
      refine .first (fun known => new ((same _).2 known)) (up fun c => ?_) (onward fun c => ?_)
      · simp only [List.mem_cons, same]
      · simp only [List.mem_append, List.mem_cons, same]

/-- A walk along other edges is the same if they are the same where it arrives. -/
theorem of_next_eq (h : Arrivals next seen pending order)
    (same : ∀ c ∈ order, next' c = next c) : Arrivals next' seen pending order := by
  induction h with
  | nil seen => exact .nil seen
  | again known _ ih => exact .again known (ih same)
  | @first seen rest above later idx new _ _ up onward =>
      have hup := up fun c hc => same c (by simp [hc])
      have honward := onward fun c hc => same c (by simp [hc])
      rw [← same idx (by simp)] at hup
      exact .first new hup honward

/-- A walk through two lists is one through the first, and then one through the second. -/
theorem split (h : Arrivals next seen (a ++ b) order) : ∃ before after,
    order = before ++ after ∧ Arrivals next seen a before ∧
      Arrivals next (before ++ seen) b after := by
  induction a generalizing seen order with
  | nil => exact ⟨[], order, rfl, .nil seen, h⟩
  | cons idx a ih =>
      cases h with
      | again known later =>
          obtain ⟨before, after, rfl, hbefore, hafter⟩ := ih later
          exact ⟨before, after, rfl, .again known hbefore, hafter⟩
      | @first _ _ above later _ new up onward =>
          obtain ⟨before, after, rfl, hbefore, hafter⟩ := ih onward
          refine ⟨idx :: above ++ before, after, by simp, .first new up hbefore, ?_⟩
          exact hafter.congr fun c => by grind

theorem unique {order' : List TypeIdx} (h : Arrivals next seen pending order)
    (h' : Arrivals next seen pending order') : order = order' := by
  induction h generalizing order' with
  | nil => cases h'; rfl
  | again known _ ih =>
      cases h' with
      | again _ later => exact ih later
      | first new => exact absurd known new
  | first new _ _ up onward =>
      cases h' with
      | again known => exact absurd known new
      | first _ up' onward' =>
          obtain rfl := up up'
          obtain rfl := onward onward'
          rfl

/-! ## The walk arrives at exactly what is reached -/

theorem mem_of_mem_pending (h : Arrivals next seen pending order) {c : TypeIdx}
    (hc : c ∈ pending) : c ∈ order ∨ c ∈ seen := by
  induction h with
  | nil => exact absurd hc (by simp)
  | again known _ ih =>
      rcases List.mem_cons.1 hc with rfl | hc
      · exact Or.inr known
      · exact ih hc
  | first new _ _ _ onward =>
      rcases List.mem_cons.1 hc with rfl | hc
      · exact Or.inl (by simp)
      · have hcover := onward hc
        grind

/-- The walk arrives at the successors of where it arrives, now or before. -/
theorem mem_of_mem_next (h : Arrivals next seen pending order) {c p : TypeIdx} (hc : c ∈ order)
    (hp : p ∈ next c) : p ∈ order ∨ p ∈ seen := by
  induction h with
  | nil => exact absurd hc (by simp)
  | again _ _ ih => exact ih hc
  | @first seen _ above later idx _ up _ ihUp ihOnward =>
      have hcover : p ∈ later ∨ p ∈ above ++ idx :: seen := by
        rcases List.mem_append.1 hc with hc | hc
        · refine Or.inr (List.mem_append.2 ?_)
          rcases List.mem_cons.1 hc with rfl | hc
          · exact up.mem_of_mem_pending hp
          · exact ihUp hc
        · exact ihOnward hc
      grind

theorem leadsTo_of_mem (h : Arrivals next seen pending order) {c : TypeIdx} (hc : c ∈ order) :
    ∃ start ∈ pending, LeadsTo next start c := by
  induction h with
  | nil => exact absurd hc (by simp)
  | again _ _ ih =>
      obtain ⟨start, hstart, hreach⟩ := ih hc
      exact ⟨start, List.mem_cons_of_mem _ hstart, hreach⟩
  | @first _ _ _ _ idx _ _ _ ihUp ihOnward =>
      rcases List.mem_append.1 hc with hc | hc
      · rcases List.mem_cons.1 hc with rfl | hc
        · exact ⟨c, List.mem_cons_self, .refl⟩
        · obtain ⟨above, habove, hreach⟩ := ihUp hc
          exact ⟨idx, List.mem_cons_self, .head habove hreach⟩
      · obtain ⟨start, hstart, hreach⟩ := ihOnward hc
        exact ⟨start, List.mem_cons_of_mem _ hstart, hreach⟩

end Arrivals

namespace Registry

variable {r r' : Registry} {along along' : TypeDef → List TypeIdx} {idx c : TypeIdx}

/-! ## What a registry is walked by -/

theorem successors_of_known {d : TypeDef} (known : r.type? idx = some d) :
    r.successors along idx = along d := by
  rw [successors, known]
  rfl

theorem arrivals_walk (r : Registry) (along : TypeDef → List TypeIdx)
    (seen pending : List TypeIdx) :
    Arrivals (r.successors along) seen pending (r.walk along seen pending) := by
  induction seen, pending using walk.induct r along with
  | case1 seen =>
      rw [walk]
      exact .nil seen
  | case2 seen idx pending known ih =>
      rw [walk, if_pos known]
      exact .again known ih
  | case3 seen idx pending new ih =>
      rw [walk, if_neg new]
      obtain ⟨above, later, hsplit, hup, hlater⟩ := ih.split
      rw [hsplit]
      exact .first new hup hlater

/-- The walk is in the order of first arrivals, and there is no other. -/
theorem arrivals_iff :
    Arrivals (r.successors along) seen pending order ↔ order = r.walk along seen pending := by
  constructor
  · intro h
    exact h.unique (r.arrivals_walk along seen pending)
  · rintro rfl
    exact r.arrivals_walk along seen pending

/-- The walk from a position arrives at all that the position leads to, itself included. -/
theorem mem_walk_iff : c ∈ r.walk along [] [idx] ↔ LeadsTo (r.successors along) idx c := by
  have hwalk := r.arrivals_walk along [] [idx]
  constructor
  · intro hc
    obtain ⟨start, hstart, hreach⟩ := hwalk.leadsTo_of_mem hc
    rwa [List.mem_singleton.1 hstart] at hreach
  · intro hreach
    induction hreach with
    | refl => exact (hwalk.mem_of_mem_pending List.mem_cons_self).resolve_right (by simp)
    | tail _ hnext ih => exact (hwalk.mem_of_mem_next ih hnext).resolve_right (by simp)

/-- Two registries are walked in the same way if the successors are the same along the walk. -/
theorem walk_congr (same : ∀ c ∈ r.walk along seen pending,
    r'.successors along c = r.successors along c) :
    r'.walk along seen pending = r.walk along seen pending :=
  (arrivals_iff.1 ((r.arrivals_walk along seen pending).of_next_eq same)).symm

/-- From where there is nowhere to go, the walk is over at once. -/
theorem walk_of_successors_eq_nil (h : r.successors along idx = []) :
    r.walk along [] [idx] = [idx] := by
  simp [walk, h]

/-! ## What a contract inherits from -/

/-- The one contract names the other as a parent. -/
def Extends (r : Registry) (a b : TypeIdx) : Prop := b ∈ r.parents a

/-- The one contract leads to the other along parents, in any number of steps. -/
abbrev Inherits (r : Registry) : TypeIdx → TypeIdx → Prop := Relation.ReflTransGen r.Extends

/-- A walk along parents, which visits a contract before its parents. -/
abbrev FirstArrivals (r : Registry) : List TypeIdx → List TypeIdx → List TypeIdx → Prop :=
  Arrivals r.parents

/-- The ancestry of a contract is its depth-first preorder. -/
theorem firstArrivals_iff : r.FirstArrivals [] [idx] order ↔ order = r.ancestry idx :=
  arrivals_iff

/-- The ancestry of a contract is what the contract inherits from, itself included. -/
theorem mem_ancestry_iff : c ∈ r.ancestry idx ↔ r.Inherits idx c := mem_walk_iff

/-- A contract without parents comes alone. -/
theorem ancestry_of_parents_eq_nil (h : r.parents idx = []) : r.ancestry idx = [idx] :=
  walk_of_successors_eq_nil h

/-! ## Assignability of declared types -/

/-- One type names the other as its base, as a contract or as a parent. -/
def Linked (r : Registry) (a b : TypeIdx) : Prop := b ∈ r.links a

/-- One type leads to the other along links, in any number of steps. -/
abbrev Reaches (r : Registry) : TypeIdx → TypeIdx → Prop := Relation.ReflTransGen r.Linked

theorem derivesFrom_iff (r : Registry) (a b : TypeIdx) :
    r.derivesFrom a b = true ↔ r.Reaches a b := by
  rw [derivesFrom, List.contains_iff_mem]
  exact mem_walk_iff

theorem isAssignable_self (r : Registry) (ty : TypeRef) : r.isAssignable ty ty = true := by
  simp [isAssignable]

theorem isAssignable_named_iff (r : Registry) (a b : TypeIdx) :
    r.isAssignable (.named a) (.named b) = true ↔ r.Reaches a b := by
  by_cases h : a = b
  · subst h
    simp only [isAssignable_self, true_iff]
    exact .refl
  · rw [← derivesFrom_iff]
    simp [isAssignable, h]

theorem isAssignable_named_trans (r : Registry) {a b c : TypeIdx}
    (hab : r.isAssignable (.named a) (.named b) = true)
    (hbc : r.isAssignable (.named b) (.named c) = true) :
    r.isAssignable (.named a) (.named c) = true := by
  rw [isAssignable_named_iff] at hab hbc ⊢
  exact hab.trans hbc

end Registry

end Contracts
