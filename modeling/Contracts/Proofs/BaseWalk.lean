import Contracts.Proofs.BaseChain
import Contracts.Proofs.Reachability
import Mathlib.Data.List.Nodup
import Mathlib.Data.List.Perm.Subperm

set_option autoImplicit false

/-! # The base chain, link by link

A walk along base links has a limit on its steps, and in a cycle nothing else stops it. What it
arrives at is best counted from where it starts: position `n` holds the type that `n` links lead to
(`Registry.nthBase?`), as long as that is within the limit (`Registry.getElem?_baseWalk`). So the
base chain comes to each of its types first by the fewest links. Where the links run in no cycle no
type is in two positions; then there are at most as many positions as declared types, which is one
less than the limit allows, so the chain is not cut short. Where they run in a cycle it always is
(`Registry.length_baseChain_eq_iff`). Main statement: `Registry.baseChain_complete`. -/

namespace Contracts

namespace Registry

variable {r : Registry} {start idx a b : TypeIdx} {steps n m : Nat}

/-! ## Counting links -/

/-- The base that a type is declared with. -/
def base? (r : Registry) (idx : TypeIdx) : Option TypeIdx := (r.type? idx).bind (·.base?)

/-- The type that so many base links lead to. -/
def nthBase? (r : Registry) : Nat → TypeIdx → Option TypeIdx
  | 0, idx => some idx
  | n + 1, idx => (r.base? idx).bind (r.nthBase? n)

theorem hasBase_iff : r.HasBase a b ↔ r.base? a = some b := by
  rw [base?, Option.bind_eq_some_iff]
  exact Iff.rfl

theorem nthBase?_add (r : Registry) (m n : Nat) (start : TypeIdx) :
    r.nthBase? (m + n) start = (r.nthBase? m start).bind (r.nthBase? n) := by
  induction m generalizing start with
  | zero => rw [Nat.zero_add, nthBase?, Option.bind_some]
  | succ m ih =>
      rw [Nat.succ_add, nthBase?, nthBase?, Option.bind_assoc]
      exact Option.bind_congr fun base _ => ih base

theorem descendsFrom_iff : r.DescendsFrom a b ↔ ∃ n, r.nthBase? n a = some b := by
  constructor
  · intro h
    induction h using Relation.ReflTransGen.head_induction_on with
    | refl => exact ⟨0, rfl⟩
    | head hstep _ ih =>
        obtain ⟨n, hn⟩ := ih
        exact ⟨n + 1, by rw [nthBase?, hasBase_iff.1 hstep, Option.bind_some, hn]⟩
  · rintro ⟨n, hn⟩
    induction n generalizing a with
    | zero =>
        obtain rfl := Option.some.inj hn
        exact .refl
    | succ n ih =>
        obtain ⟨base, hbase, hrest⟩ := Option.bind_eq_some_iff.1 hn
        exact .head (hasBase_iff.2 hbase) (ih hrest)

/-! ## The positions of a walk -/

theorem length_baseWalk_le (r : Registry) (steps : Nat) (start : TypeIdx) :
    (r.baseWalk steps start).length ≤ steps + 1 := by
  induction steps, start using baseWalk_induction r with
  | undeclared steps start hnone => simp [baseWalk_of_undeclared hnone]
  | last steps start d hd hlast => simp [baseWalk_of_last hd hlast]
  | onward steps start d base hd hbase ih => simpa [baseWalk_succ hd hbase] using ih

theorem getElem?_baseWalk_zero (r : Registry) (steps : Nat) (start : TypeIdx) :
    (r.baseWalk steps start)[0]? = (r.type? start).map (start, ·) := by
  cases h : r.type? start with
  | none => simp [baseWalk_of_undeclared h]
  | some d =>
      obtain ⟨rest, hwalk⟩ := exists_baseWalk_cons h steps
      simp [hwalk]

/-- Behind its first type a walk is that of the base, with one step less. -/
theorem getElem?_baseWalk_succ (r : Registry) (steps n : Nat) (start : TypeIdx) :
    (r.baseWalk (steps + 1) start)[n + 1]? =
      (r.base? start).bind fun base => (r.baseWalk steps base)[n]? := by
  cases h : r.type? start with
  | none => simp [base?, h, baseWalk_of_undeclared h]
  | some d =>
      cases hbase : d.base? with
      | none => simp [base?, h, hbase, baseWalk_of_last h (Or.inr hbase)]
      | some base => simp [base?, h, hbase, baseWalk_succ h hbase]

/-- Within its limit a walk holds in each position the type that so many links lead to. -/
theorem getElem?_baseWalk (r : Registry) (start : TypeIdx) (h : n ≤ steps) :
    (r.baseWalk steps start)[n]? =
      (r.nthBase? n start).bind fun idx => (r.type? idx).map (idx, ·) := by
  induction n generalizing steps start with
  | zero => rw [getElem?_baseWalk_zero, nthBase?, Option.bind_some]
  | succ n ih =>
      obtain ⟨steps, rfl⟩ := Nat.exists_eq_succ_of_ne_zero (Nat.ne_zero_of_lt h)
      rw [getElem?_baseWalk_succ, nthBase?, Option.bind_assoc]
      exact Option.bind_congr fun base _ => ih base (Nat.le_of_succ_le_succ h)

/-- The same for the types without their declarations. -/
theorem getElem?_map_fst_baseWalk : ((r.baseWalk steps start).map Prod.fst)[n]? = some idx ↔
    n ≤ steps ∧ r.nthBase? n start = some idx ∧ (r.type? idx).isSome = true := by
  by_cases h : n ≤ steps
  · rw [List.getElem?_map, r.getElem?_baseWalk start h, and_iff_right h]
    simp only [Option.map_eq_some_iff, Option.bind_eq_some_iff, Option.isSome_iff_exists]
    constructor
    · rintro ⟨-, ⟨i, hi, d, hd, rfl⟩, rfl⟩
      exact ⟨hi, d, hd⟩
    · rintro ⟨hi, d, hd⟩
      exact ⟨_, ⟨idx, hi, d, hd, rfl⟩, rfl⟩
  · have hlength := r.length_baseWalk_le steps start
    refine iff_of_false ?_ fun hwithin => h hwithin.1
    simp [List.getElem?_eq_none (by omega : (r.baseWalk steps start).length ≤ n)]

/-- A type is first come to on the chain after the fewest links that lead to it. -/
theorem idxOf?_baseChain_eq_some_iff :
    ((r.baseChain start).map Prod.fst).idxOf? idx = some n ↔
      (r.type? idx).isSome = true ∧ r.nthBase? n start = some idx ∧
        ∀ m < n, r.nthBase? m start ≠ some idx := by
  rw [List.idxOf?_eq_some_iff]
  constructor
  · rintro ⟨hlength, hget, hfirst⟩
    obtain ⟨hn, hlinks, declared⟩ :=
      getElem?_map_fst_baseWalk.1 (List.getElem?_eq_some_iff.2 ⟨hlength, hget⟩)
    refine ⟨declared, hlinks, fun m hm hearlier => ?_⟩
    have hpos := getElem?_map_fst_baseWalk.2 ⟨Nat.le_trans (Nat.le_of_lt hm) hn, hearlier, declared⟩
    exact hfirst m hm (List.getElem?_eq_some_iff.1 hpos).2
  · rintro ⟨declared, hlinks, hfewest⟩
    -- The type is somewhere on the chain, so the fewest links are within the limit.
    obtain ⟨d, hd⟩ := Option.isSome_iff_exists.1 declared
    have hmem : idx ∈ (r.baseChain start).map Prod.fst :=
      List.mem_map.2 ⟨_, mem_baseChain_iff.2 ⟨hd, descendsFrom_iff.2 ⟨n, hlinks⟩⟩, rfl⟩
    obtain ⟨k, hk⟩ := List.mem_iff_getElem?.1 hmem
    obtain ⟨hlimit, hlinks', -⟩ := getElem?_map_fst_baseWalk.1 hk
    have hn : n ≤ k := Nat.le_of_not_lt fun hlt => hfewest k hlt hlinks'
    have hpos := getElem?_map_fst_baseWalk.2 ⟨Nat.le_trans hn hlimit, hlinks, declared⟩
    obtain ⟨hlength, hget⟩ := List.getElem?_eq_some_iff.1 hpos
    refine ⟨hlength, hget, fun m hm hearlier => ?_⟩
    have hpos' := List.getElem?_eq_some_iff.2 ⟨Nat.lt_trans hm hlength, hearlier⟩
    exact hfewest m hm (getElem?_map_fst_baseWalk.1 hpos').2.1

/-! ## Cycles -/

/-- The base links from a type lead into a cycle. -/
def RunsInCycle (r : Registry) (start : TypeIdx) : Prop :=
  ∃ idx, r.DescendsFrom start idx ∧ Relation.TransGen r.HasBase idx idx

/-- Without a cycle different numbers of links lead to different types. -/
theorem eq_of_nthBase? (acyclic : ¬r.RunsInCycle start) (hm : r.nthBase? m start = some idx)
    (hn : r.nthBase? n start = some idx) : m = n := by
  wlog hle : m ≤ n generalizing m n
  · exact (this hn hm (Nat.le_of_not_le hle)).symm
  refine Decidable.byContradiction fun hne => acyclic ⟨idx, descendsFrom_iff.2 ⟨m, hm⟩, ?_⟩
  -- The links that are left lead from the type to itself.
  obtain ⟨k, rfl⟩ : ∃ k, n = m + (k + 1) := ⟨n - m - 1, by omega⟩
  rw [nthBase?_add, hm, Option.bind_some, nthBase?] at hn
  obtain ⟨base, hbase, hback⟩ := Option.bind_eq_some_iff.1 hn
  exact Relation.TransGen.head'_iff.2 ⟨base, hasBase_iff.2 hbase, descendsFrom_iff.2 ⟨k, hback⟩⟩

theorem nodup_baseWalk (acyclic : ¬r.RunsInCycle start) (steps : Nat) :
    ((r.baseWalk steps start).map Prod.fst).Nodup := by
  rw [List.nodup_iff_getElem?_ne_getElem?]
  intro i j hij hj heq
  have hlater := List.getElem?_eq_getElem hj
  have hlinks := (getElem?_map_fst_baseWalk.1 hlater).2.1
  have hlinks' := (getElem?_map_fst_baseWalk.1 (heq.trans hlater)).2.1
  exact Nat.ne_of_lt hij (eq_of_nthBase? acyclic hlinks' hlinks)

/-- Without a cycle a walk, however far it may go, has no more items than types are declared. -/
theorem length_baseWalk_le_size (acyclic : ¬r.RunsInCycle start) (steps : Nat) :
    (r.baseWalk steps start).length ≤ r.types.size := by
  have hnodup : (((r.baseWalk steps start).map Prod.fst).map TypeIdx.index).Nodup :=
    (nodup_baseWalk acyclic steps).map fun ⟨_⟩ ⟨_⟩ h => congrArg TypeIdx.mk h
  have hdeclared :
      ((r.baseWalk steps start).map Prod.fst).map TypeIdx.index ⊆ List.range r.types.size := by
    intro i hi
    simp only [List.mem_map, exists_exists_and_eq_and] at hi
    obtain ⟨⟨c, d⟩, hmem, rfl⟩ := hi
    have hd := (descendsFrom_of_mem_baseWalk hmem).1
    exact List.mem_range.2 (Array.getElem?_eq_some_iff.1 hd).1
  simpa using (hnodup.subperm hdeclared).length_le

/-- Without a cycle walking further than the chain leads to nothing more. -/
theorem baseWalk_eq_baseChain (acyclic : ¬r.RunsInCycle start) (h : r.types.size ≤ steps) :
    r.baseWalk steps start = r.baseChain start := by
  refine List.ext_getElem? fun n => ?_
  by_cases hn : n ≤ r.types.size
  · rw [baseChain, r.getElem?_baseWalk start hn, r.getElem?_baseWalk start (Nat.le_trans hn h)]
  · have hwalk := length_baseWalk_le_size acyclic steps
    have hchain := length_baseWalk_le_size acyclic r.types.size
    rw [List.getElem?_eq_none (by omega), baseChain, List.getElem?_eq_none (by omega)]

/-- Links that lead into a cycle go on and on. -/
theorem RunsInCycle.exists_base (h : r.RunsInCycle a) : ∃ b, r.HasBase a b ∧ r.RunsInCycle b := by
  obtain ⟨c, hreach, hcycle⟩ := h
  rcases Relation.ReflTransGen.cases_head hreach with rfl | ⟨b, hstep, hrest⟩
  · obtain ⟨b, hstep, hback⟩ := Relation.TransGen.head'_iff.1 hcycle
    exact ⟨b, hstep, a, hback, hcycle⟩
  · exact ⟨b, hstep, c, hrest, hcycle⟩

theorem RunsInCycle.exists_nthBase? (h : r.RunsInCycle start) (n : Nat) :
    ∃ idx, r.nthBase? n start = some idx ∧ r.RunsInCycle idx := by
  induction n generalizing start with
  | zero => exact ⟨start, rfl, h⟩
  | succ n ih =>
      obtain ⟨base, hbase, hcycle⟩ := h.exists_base
      obtain ⟨idx, hidx, hcycle'⟩ := ih hcycle
      exact ⟨idx, by rw [nthBase?, hasBase_iff.1 hbase, Option.bind_some, hidx], hcycle'⟩

/-- The chain is cut short by the limit exactly if the links lead into a cycle. -/
theorem length_baseChain_eq_iff :
    (r.baseChain start).length = r.types.size + 1 ↔ r.RunsInCycle start := by
  constructor
  · intro hlength
    refine Classical.byContradiction fun acyclic => ?_
    have hle := length_baseWalk_le_size acyclic r.types.size
    rw [baseChain] at hlength
    omega
  · intro h
    obtain ⟨idx, hidx, hcycle⟩ := h.exists_nthBase? r.types.size
    obtain ⟨-, ⟨d, hd, -⟩, -⟩ := hcycle.exists_base
    have hlast := r.getElem?_baseWalk start (Nat.le_refl r.types.size)
    rw [hidx, Option.bind_some, hd, Option.map_some] at hlast
    have hle := r.length_baseWalk_le r.types.size start
    have hlt := (List.getElem?_eq_some_iff.1 hlast).1
    rw [baseChain]
    omega

instance (r : Registry) (start : TypeIdx) : Decidable (r.RunsInCycle start) :=
  decidable_of_iff _ length_baseChain_eq_iff

/-! ## The chain -/

theorem linked_of_hasBase (h : r.HasBase a b) : r.Linked a b := by
  obtain ⟨d, hd, hbase⟩ := h
  simp [Linked, links, successors_of_known hd, TypeDef.links, hbase]

theorem reaches_of_descendsFrom (h : r.DescendsFrom a b) : r.Reaches a b :=
  Relation.ReflTransGen.mono (fun _ _ => linked_of_hasBase) _ _ h

/-- **The base chain is complete, and bounded.** It has at most one item more than types are
declared, and exactly so many if the base links from the type lead into a cycle. Its types are the
declared ones that these links lead to, and each stands first in the position that is the fewest
links away. If the links lead into no cycle, no type is in two positions, and a higher limit would
change nothing. The type is assignable to every type of its chain. -/
theorem baseChain_complete (r : Registry) (start : TypeIdx) :
    (r.baseChain start).length ≤ r.types.size + 1 ∧
      ((r.baseChain start).length = r.types.size + 1 ↔ r.RunsInCycle start) ∧
      (∀ idx decl, (idx, decl) ∈ r.baseChain start ↔
        r.type? idx = some decl ∧ r.DescendsFrom start idx) ∧
      (∀ idx n, ((r.baseChain start).map Prod.fst).idxOf? idx = some n ↔
        (r.type? idx).isSome = true ∧ r.nthBase? n start = some idx ∧
          ∀ m < n, r.nthBase? m start ≠ some idx) ∧
      (¬r.RunsInCycle start → ((r.baseChain start).map Prod.fst).Nodup ∧
        ∀ steps, r.types.size ≤ steps → r.baseWalk steps start = r.baseChain start) ∧
      ∀ t ∈ r.baseChain start, r.isAssignable (.named start) (.named t.1) = true := by
  refine ⟨r.length_baseWalk_le _ start, length_baseChain_eq_iff, fun _ _ => mem_baseChain_iff,
    fun _ _ => idxOf?_baseChain_eq_some_iff, fun acyclic => ?_, fun ⟨idx, decl⟩ hmem => ?_⟩
  · exact ⟨nodup_baseWalk acyclic _, fun _ hsteps => baseWalk_eq_baseChain acyclic hsteps⟩
  · have hreach := (mem_baseChain_iff.1 hmem).2
    exact (r.isAssignable_named_iff start idx).2 (reaches_of_descendsFrom hreach)

/-! ### A line and a loop -/

/-- A class based on a struct based on a contract; there are no other types. -/
def lineRegistry : Registry where
  types := #[
    ⟨"Placed", true, .contract {}⟩,
    ⟨"Point", true, .implementation true { base := some ⟨0⟩ }⟩,
    ⟨"Pin", true, .implementation false { base := some ⟨1⟩ }⟩]

/-- A class based on one of two others, each of which is the base of the other one. -/
def loopRegistry : Registry where
  types := #[
    ⟨"Tail", true, .implementation false { base := some ⟨1⟩ }⟩,
    ⟨"Hen", true, .implementation false { base := some ⟨2⟩ }⟩,
    ⟨"Egg", true, .implementation false { base := some ⟨1⟩ }⟩]

theorem baseChain_complete_line :
    (¬lineRegistry.RunsInCycle ⟨2⟩ ∧
        (lineRegistry.baseChain ⟨2⟩).map Prod.fst = [⟨2⟩, ⟨1⟩, ⟨0⟩] ∧
        lineRegistry.baseWalk 7 ⟨2⟩ = lineRegistry.baseChain ⟨2⟩ ∧
        lineRegistry.isAssignable (.named ⟨2⟩) (.named ⟨0⟩) = true) ∧
      (loopRegistry.baseChain ⟨0⟩).map Prod.fst = [⟨0⟩, ⟨1⟩, ⟨2⟩, ⟨1⟩] ∧
        loopRegistry.RunsInCycle ⟨0⟩ ∧ ∀ m < 2, loopRegistry.nthBase? m ⟨0⟩ ≠ some ⟨2⟩ := by
  obtain ⟨-, -, hreached, -, hacyclic, hassign⟩ := baseChain_complete lineRegistry ⟨2⟩
  obtain ⟨-, hcycle, -, hfirst, -⟩ := baseChain_complete loopRegistry ⟨0⟩
  have hline : ¬lineRegistry.RunsInCycle ⟨2⟩ := by decide
  refine ⟨⟨hline, rfl, (hacyclic hline).2 7 (by decide), ?_⟩, rfl, hcycle.1 rfl, ?_⟩
  · exact hassign _ ((hreached ⟨0⟩ _).2 ⟨rfl, descendsFrom_iff.2 ⟨2, rfl⟩⟩)
  · exact ((hfirst ⟨2⟩ 2).1 rfl).2.2

end Registry

end Contracts
