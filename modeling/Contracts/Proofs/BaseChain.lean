import Contracts.Assignability
import Contracts.Registry.Inventory
import Mathlib.Logic.Relation

set_option autoImplicit false

/-! # The base chain reaches every ancestor

`Registry.baseWalk` follows base links for a limited number of steps. Nothing is lost by the limit:
the chain of a type has exactly the declared types that its base links lead to, whether they form a
long line, run in a cycle or end where nothing is declared (`Registry.mem_baseChain_iff`). So what
is first found along the chain is not changed by walking further
(`Registry.findSome?_baseWalk`), and from any of its types on the chain goes on as the chain of
that type (`Registry.findSome?_baseChain_of_split`). -/

namespace Contracts

namespace Registry

/-- The one type is declared with the other as its base. -/
def HasBase (r : Registry) (a b : TypeIdx) : Prop :=
  ∃ decl, r.type? a = some decl ∧ decl.base? = some b

/-- The one type leads to the other along base links, in any number of steps. -/
abbrev DescendsFrom (r : Registry) : TypeIdx → TypeIdx → Prop := Relation.ReflTransGen r.HasBase

variable {r : Registry} {start idx base : TypeIdx} {decl : TypeDef} {steps : Nat}

/-! ## One step of the walk -/

theorem baseWalk_of_undeclared (h : r.type? idx = none) : r.baseWalk steps idx = [] := by
  unfold baseWalk
  rw [h]

theorem baseWalk_of_last (h : r.type? idx = some decl) (last : steps = 0 ∨ decl.base? = none) :
    r.baseWalk steps idx = [(idx, decl)] := by
  unfold baseWalk
  rw [h]
  rcases last with rfl | hbase
  · rfl
  · cases steps <;> simp only [hbase]

theorem baseWalk_succ (h : r.type? idx = some decl) (hbase : decl.base? = some base) :
    r.baseWalk (steps + 1) idx = (idx, decl) :: r.baseWalk steps base := by
  rw [baseWalk]
  simp only [h, hbase]

/-- Walks are shown something about from their ends: where nothing is declared, at a type that is
the last one, and at a type that the walk goes on from. -/
@[elab_as_elim]
theorem baseWalk_induction (r : Registry) {motive : Nat → TypeIdx → Prop}
    (undeclared : ∀ steps idx, r.type? idx = none → motive steps idx)
    (last : ∀ steps idx decl, r.type? idx = some decl → (steps = 0 ∨ decl.base? = none) →
      motive steps idx)
    (onward : ∀ steps idx decl base, r.type? idx = some decl → decl.base? = some base →
      motive steps base → motive (steps + 1) idx)
    (steps : Nat) (idx : TypeIdx) : motive steps idx := by
  induction steps generalizing idx with
  | zero =>
      cases h : r.type? idx with
      | none => exact undeclared 0 idx h
      | some decl => exact last 0 idx decl h (Or.inl rfl)
  | succ steps ih =>
      cases h : r.type? idx with
      | none => exact undeclared _ idx h
      | some decl =>
          cases hbase : decl.base? with
          | none => exact last _ idx decl h (Or.inr hbase)
          | some base => exact onward steps idx decl base h hbase (ih base)

theorem exists_baseWalk_cons (h : r.type? idx = some decl) (steps : Nat) :
    ∃ rest, r.baseWalk steps idx = (idx, decl) :: rest := by
  unfold baseWalk
  rw [h]
  exact ⟨_, rfl⟩

/-! ## The walk arrives at exactly the ancestors -/

/-- What a walk arrives at is declared, and reached along base links. -/
theorem descendsFrom_of_mem_baseWalk (h : (idx, decl) ∈ r.baseWalk steps start) :
    r.type? idx = some decl ∧ r.DescendsFrom start idx := by
  induction steps, start using baseWalk_induction r with
  | undeclared steps start hnone => simp [baseWalk_of_undeclared hnone] at h
  | last steps start d hd hlast =>
      rw [baseWalk_of_last hd hlast, List.mem_singleton] at h
      obtain ⟨rfl, rfl⟩ := Prod.mk.inj h
      exact ⟨hd, .refl⟩
  | onward steps start d base hd hbase ih =>
      rw [baseWalk_succ hd hbase] at h
      rcases List.mem_cons.1 h with heq | h
      · obtain ⟨rfl, rfl⟩ := Prod.mk.inj heq
        exact ⟨hd, .refl⟩
      · obtain ⟨hdecl, hreach⟩ := ih h
        exact ⟨hdecl, .head ⟨d, hd, hbase⟩ hreach⟩

/-- A walk that comes back to a type that it has passed leads to nothing new. -/
theorem mem_passed_of_descendsFrom {passed : List TypeIdx} (known : start ∈ passed)
    (closed : ∀ a ∈ passed, ∀ b, r.HasBase a b → b = start ∨ b ∈ passed)
    (h : r.DescendsFrom start idx) : idx ∈ passed := by
  induction h with
  | refl => exact known
  | tail _ hstep ih =>
      rcases closed _ ih _ hstep with rfl | hpassed
      · exact known
      · exact hpassed

/-- Everything declared that base links lead to is passed already or still ahead, as long as there
are steps for all the declared types that have not been passed. -/
theorem mem_baseWalk_of_descendsFrom {passed : List TypeIdx} (enough : r.unvisited passed ≤ steps)
    (closed : ∀ a ∈ passed, ∀ b, r.HasBase a b → b = start ∨ b ∈ passed)
    (h : r.DescendsFrom start idx) (declared : r.type? idx = some decl) :
    idx ∈ passed ∨ (idx, decl) ∈ r.baseWalk steps start := by
  induction steps generalizing start passed with
  | zero =>
      -- No step is left, so everything declared has been passed.
      refine Or.inl (Decidable.byContradiction fun new => ?_)
      have hlt : idx.index < r.types.size := (Array.getElem?_eq_some_iff.1 declared).1
      have hfewer := r.unvisited_cons_lt hlt new
      omega
  | succ steps ih =>
      by_cases known : start ∈ passed
      · exact Or.inl (mem_passed_of_descendsFrom known closed h)
      rcases Relation.ReflTransGen.cases_head h with rfl | ⟨base, ⟨d, hd, hbase⟩, hrest⟩
      · obtain ⟨rest, hwalk⟩ := exists_baseWalk_cons declared (steps + 1)
        rw [hwalk]
        exact Or.inr List.mem_cons_self
      · have hlt : start.index < r.types.size := (Array.getElem?_eq_some_iff.1 hd).1
        have hfewer := r.unvisited_cons_lt hlt known
        -- One more type is passed, and the only link out of what is passed leads to its base.
        have hclosed : ∀ a ∈ start :: passed, ∀ b, r.HasBase a b →
            b = base ∨ b ∈ start :: passed := by
          intro a ha b hab
          rcases List.mem_cons.1 ha with rfl | ha
          · obtain ⟨d', hd', hbase'⟩ := hab
            obtain rfl := Option.some.inj (hd'.symm.trans hd)
            exact Or.inl (Option.some.inj (hbase'.symm.trans hbase))
          · exact Or.inr (List.mem_cons.2 (closed a ha b hab))
        rw [baseWalk_succ hd hbase]
        rcases ih (by omega) hclosed hrest with hpassed | hahead
        · rcases List.mem_cons.1 hpassed with rfl | hpassed
          · obtain rfl := Option.some.inj (hd.symm.trans declared)
            exact Or.inr List.mem_cons_self
          · exact Or.inl hpassed
        · exact Or.inr (List.mem_cons_of_mem _ hahead)

/-- The chain of a type has exactly the declared types that base links lead to. -/
theorem mem_baseChain_iff :
    (idx, decl) ∈ r.baseChain start ↔ r.type? idx = some decl ∧ r.DescendsFrom start idx := by
  constructor
  · exact descendsFrom_of_mem_baseWalk
  · rintro ⟨declared, h⟩
    have enough : r.unvisited [] ≤ r.types.size :=
      Nat.le_trans List.countP_le_length (Nat.le_of_eq List.length_range)
    exact (mem_baseWalk_of_descendsFrom enough (by simp) h declared).resolve_left (by simp)

/-! ## Walking on -/

theorem baseWalk_prefix_succ (r : Registry) (steps : Nat) (idx : TypeIdx) :
    r.baseWalk steps idx <+: r.baseWalk (steps + 1) idx := by
  induction steps, idx using baseWalk_induction r with
  | undeclared steps idx hnone =>
      rw [baseWalk_of_undeclared hnone]
      exact List.nil_prefix
  | last steps idx d hd hlast =>
      obtain ⟨rest, hwalk⟩ := exists_baseWalk_cons hd (steps + 1)
      rw [baseWalk_of_last hd hlast, hwalk]
      exact List.prefix_append [(idx, d)] rest
  | onward steps idx d base hd hbase ih =>
      rw [baseWalk_succ hd hbase, baseWalk_succ hd hbase]
      exact (List.prefix_cons_inj _).2 ih

theorem baseWalk_prefix (r : Registry) {steps more : Nat} (h : steps ≤ more) (idx : TypeIdx) :
    r.baseWalk steps idx <+: r.baseWalk more idx := by
  induction h with
  | refl => exact List.prefix_rfl
  | step _ ih => exact ih.trans (r.baseWalk_prefix_succ _ idx)

/-- What is first found on a walk that is long enough is what is first found on the chain. -/
theorem findSome?_baseWalk {α : Type} (f : TypeIdx × TypeDef → Option α)
    (h : r.types.size ≤ steps) :
    (r.baseWalk steps idx).findSome? f = (r.baseChain idx).findSome? f := by
  obtain ⟨rest, hrest⟩ := r.baseWalk_prefix h idx
  cases hchain : (r.baseChain idx).findSome? f with
  | some found => rw [← hrest, List.findSome?_append, ← baseChain, hchain, Option.some_or]
  | none =>
      -- Nothing that the longer walk arrives at is new.
      refine List.findSome?_eq_none_iff.2 fun ⟨c, d⟩ hc => ?_
      have hmem := mem_baseChain_iff.2 (descendsFrom_of_mem_baseWalk hc)
      exact List.findSome?_eq_none_iff.1 hchain _ hmem

/-- A walk that passes a type is the walk of that type from there on. -/
theorem baseWalk_of_split {before after : List (TypeIdx × TypeDef)}
    (h : r.baseWalk steps start = before ++ (idx, decl) :: after) (more : Nat) :
    r.baseWalk (before.length + more) start = before ++ r.baseWalk more idx := by
  induction steps, start using baseWalk_induction r generalizing before with
  | undeclared steps start hnone => simp [baseWalk_of_undeclared hnone] at h
  | last steps start d hd hlast =>
      rw [baseWalk_of_last hd hlast] at h
      obtain ⟨rfl, hstart⟩ : before = [] ∧ start = idx := by
        cases before <;> simp_all
      rw [List.length_nil, Nat.zero_add, List.nil_append, hstart]
  | onward steps start d base hd hbase ih =>
      rw [baseWalk_succ hd hbase] at h
      cases before with
      | nil =>
          obtain ⟨rfl, -⟩ := Prod.mk.inj (List.cons.inj h).1
          rw [List.length_nil, Nat.zero_add, List.nil_append]
      | cons first before =>
          obtain ⟨rfl, hrest⟩ := List.cons.inj h
          rw [List.length_cons, Nat.add_right_comm, baseWalk_succ hd hbase, ih hrest,
            List.cons_append]

/-- If nothing is found before a type on the chain, then what is first found is what is first found
on the chain of that type. -/
theorem findSome?_baseChain_of_split {α : Type} (f : TypeIdx × TypeDef → Option α)
    {before after : List (TypeIdx × TypeDef)}
    (h : r.baseChain start = before ++ (idx, decl) :: after) (none : ∀ t ∈ before, f t = .none) :
    (r.baseChain start).findSome? f = (r.baseChain idx).findSome? f := by
  have hbefore : before.findSome? f = .none := List.findSome?_eq_none_iff.2 none
  calc (r.baseChain start).findSome? f
      = (r.baseWalk (before.length + r.types.size) start).findSome? f :=
        (findSome?_baseWalk f (Nat.le_add_left _ _)).symm
    _ = (before ++ r.baseChain idx).findSome? f := by rw [baseWalk_of_split h, ← baseChain]
    _ = (r.baseChain idx).findSome? f := by rw [List.findSome?_append, hbefore, Option.none_or]

end Registry

end Contracts
