import Contracts.Proofs.SelfUnification

set_option autoImplicit false

/-! # Pairs are one to one, and none is taken back

Whatever a unifier compares, and whether it succeeds or not, the parameters stay paired one to one
and every pair that was there is there afterwards (`Unifier.adds_params`). In particular a parameter
that has been paired fits no other one from then on (`Unifier.params_of_paired`), also if the
comparison that paired it has failed. -/

namespace Contracts

/-! ## Runs over lists -/

section Runs

variable {σ α : Type} (f : α → StateM σ Bool) (x : α) (xs : List α) (s : σ)

theorem StateM.run_allM_cons : ((x :: xs).allM f).run s =
    if ((f x).run s).1 then (xs.allM f).run ((f x).run s).2 else (false, ((f x).run s).2) := by
  cases h : (f x).run s with
  | mk fits s' =>
      rw [List.allM_cons, StateM.run_bind_of_run h]
      cases fits <;> rfl

theorem StateM.run_anyM_cons : ((x :: xs).anyM f).run s =
    if ((f x).run s).1 then (true, ((f x).run s).2) else (xs.anyM f).run ((f x).run s).2 := by
  cases h : (f x).run s with
  | mk fits s' =>
      rw [List.anyM_cons, StateM.run_bind_of_run h]
      cases fits <;> rfl

theorem StateM.run_allM_cons_eq_true_iff {s' : σ} : ((x :: xs).allM f).run s = (true, s') ↔
    ∃ middle, (f x).run s = (true, middle) ∧ (xs.allM f).run middle = (true, s') := by
  rw [StateM.run_allM_cons]
  constructor
  · intro h
    split at h
    · rename_i hfits
      exact ⟨_, Prod.ext hfits rfl, h⟩
    · exact absurd (Prod.mk.inj h).1 Bool.false_ne_true
  · rintro ⟨middle, hfirst, hrest⟩
    rw [hfirst, if_pos rfl]
    exact hrest

variable {f xs s}

/-- What fails and changes nothing may as well not be tried. -/
theorem StateM.run_anyM_append {ys : List α} (failed : ∀ x ∈ xs, (f x).run s = (false, s)) :
    ((xs ++ ys).anyM f).run s = (ys.anyM f).run s := by
  induction xs with
  | nil => rfl
  | cons x xs ih =>
      rw [List.cons_append, StateM.run_anyM_cons, failed x List.mem_cons_self]
      exact ih fun y hy => failed y (List.mem_cons_of_mem _ hy)

end Runs

/-! ## One to one -/

namespace Pairing

/-- No parameter of either side is in two pairs. -/
def OneToOne (pairs : Pairing) : Prop := ∀ p ∈ pairs, ∀ q ∈ pairs, p.1 = q.1 ↔ p.2 = q.2

/-- All earlier pairs and perhaps more, still one to one. -/
structure Extends (pairs pairs' : Pairing) : Prop where
  oneToOne : pairs'.OneToOne
  kept : pairs ⊆ pairs'

/-- A run does not both fail and succeed. -/
theorem elim_of_failed {goal : Prop} {pairs pairs' : Pairing}
    (h : ((false, pairs) : Id (Bool × Pairing)) = (true, pairs')) : goal :=
  absurd (Prod.mk.inj h).1 Bool.false_ne_true

/-- The computation does nothing to the pairs but add some. -/
def Adds (m : StateM Pairing Bool) : Prop :=
  ∀ pairs : Pairing, pairs.OneToOne → pairs.Extends (m.run pairs).2

theorem oneToOne_nil : OneToOne [] := by simp [OneToOne]

theorem OneToOne.cons {pairs : Pairing} (h : pairs.OneToOne) {i j : Nat}
    (free : ∀ p ∈ pairs, p.1 ≠ i ∧ p.2 ≠ j) : OneToOne ((i, j) :: pairs) := by
  intro p hp q hq
  rcases List.mem_cons.1 hp with rfl | hp
  · rcases List.mem_cons.1 hq with rfl | hq
    · simp
    · exact iff_of_false (free q hq).1.symm (free q hq).2.symm
  · rcases List.mem_cons.1 hq with rfl | hq
    · exact iff_of_false (free p hp).1 (free p hp).2
    · exact h p hp q hq

variable {a b c : Pairing}

theorem OneToOne.extends_self (h : a.OneToOne) : a.Extends a := ⟨h, List.Subset.refl a⟩

theorem OneToOne.extends_cons (h : a.OneToOne) {i j : Nat}
    (free : ∀ p ∈ a, p.1 ≠ i ∧ p.2 ≠ j) : a.Extends ((i, j) :: a) :=
  ⟨h.cons free, List.subset_cons_self _ _⟩

theorem OneToOne.mono (h : b.OneToOne) (subset : a ⊆ b) : a.OneToOne :=
  fun p hp q hq => h p (subset hp) q (subset hq)

theorem Extends.trans (hab : a.Extends b) (hbc : b.Extends c) : a.Extends c :=
  ⟨hbc.oneToOne, fun _ hp => hbc.kept (hab.kept hp)⟩

theorem adds_pure (fits : Bool) : Adds (pure fits) := fun _ h => h.extends_self

theorem adds_allM {α : Type} {f : α → StateM Pairing Bool} {xs : List α}
    (h : ∀ x ∈ xs, Adds (f x)) : Adds (xs.allM f) := by
  induction xs with
  | nil => exact adds_pure true
  | cons x xs ih =>
      intro pairs hpairs
      have hfirst := h x List.mem_cons_self pairs hpairs
      rw [StateM.run_allM_cons]
      split
      · exact hfirst.trans (ih (fun y hy => h y (List.mem_cons_of_mem _ hy)) _ hfirst.oneToOne)
      · exact hfirst

/-- If all of it succeeds, each part has done so at some point, and what it has achieved by pairing
stays. -/
theorem forall_of_allM {α : Type} {f : α → StateM Pairing Bool} {xs : List α}
    {pairs pairs' : Pairing} (achieved : α → Pairing → Prop)
    (h : (xs.allM f).run pairs = (true, pairs')) (hpairs : pairs.OneToOne)
    (adds : ∀ x ∈ xs, Adds (f x))
    (mono : ∀ x {a b : Pairing}, a ⊆ b → achieved x a → achieved x b)
    (success : ∀ x ∈ xs, ∀ {a b : Pairing}, a.OneToOne → (f x).run a = (true, b) → achieved x b) :
    ∀ x ∈ xs, achieved x pairs' := by
  induction xs generalizing pairs with
  | nil => simp
  | cons x xs ih =>
      have hadds := List.forall_mem_cons.1 adds
      have hsuccess := List.forall_mem_cons.1 success
      obtain ⟨middle, hfirst, hrest⟩ := (StateM.run_allM_cons_eq_true_iff ..).1 h
      have hmiddle := hadds.1 pairs hpairs
      rw [hfirst] at hmiddle
      have hkept := adds_allM hadds.2 middle hmiddle.oneToOne
      rw [hrest] at hkept
      exact List.forall_mem_cons.2 ⟨mono x hkept.kept (hsuccess.1 hpairs hfirst),
        ih hrest hmiddle.oneToOne hadds.2 hsuccess.2⟩

theorem adds_anyM {α : Type} {f : α → StateM Pairing Bool} {xs : List α}
    (h : ∀ x ∈ xs, Adds (f x)) : Adds (xs.anyM f) := by
  induction xs with
  | nil => exact adds_pure false
  | cons x xs ih =>
      intro pairs hpairs
      have hfirst := h x List.mem_cons_self pairs hpairs
      rw [StateM.run_anyM_cons]
      split
      · exact hfirst
      · exact hfirst.trans (ih (fun y hy => h y (List.mem_cons_of_mem _ hy)) _ hfirst.oneToOne)

/-- If any of it succeeds, some part has done so at some point. -/
theorem exists_of_anyM {α : Type} {f : α → StateM Pairing Bool} {xs : List α}
    {pairs pairs' : Pairing} (h : (xs.anyM f).run pairs = (true, pairs')) (hpairs : pairs.OneToOne)
    (adds : ∀ x ∈ xs, Adds (f x)) :
    ∃ x ∈ xs, ∃ middle, middle.OneToOne ∧ (f x).run middle = (true, pairs') := by
  induction xs generalizing pairs with
  | nil => exact elim_of_failed h
  | cons x xs ih =>
      rw [StateM.run_anyM_cons] at h
      split at h
      · rename_i hfits
        obtain ⟨-, rfl⟩ := Prod.mk.inj h
        exact ⟨x, List.mem_cons_self, pairs, hpairs, Prod.ext hfits rfl⟩
      · have hmiddle := (adds x List.mem_cons_self pairs hpairs).oneToOne
        obtain ⟨y, hy, found⟩ := ih h hmiddle fun y hy => adds y (List.mem_cons_of_mem _ hy)
        exact ⟨y, List.mem_cons_of_mem _ hy, found⟩

end Pairing

/-! ## What a unifier does to the pairs -/

namespace Unifier

open Pairing

variable {u : Unifier} {params : Nat → Nat → StateM Pairing Bool}

theorem adds_types (h : ∀ i j, Adds (params i j)) (variance : Variance)
    (required candidate : TypeRef) : Adds (u.types params variance required candidate) := by
  cases required with
  | param i =>
      cases candidate with
      | param j => exact h i j
      | builtin b => exact adds_pure false
      | named idx => exact adds_pure false
  | builtin b => cases candidate <;> exact adds_pure _
  | named idx => cases candidate <;> exact adds_pure _

theorem adds_constraint (h : ∀ i j, Adds (params i j)) (required candidate : Constraint) :
    Adds (u.constraint params required candidate) := by
  cases required with
  | reference => cases candidate <;> exact adds_pure _
  | value => cases candidate <;> exact adds_pure _
  | bound ty =>
      cases candidate with
      | reference => exact adds_pure false
      | value => exact adds_pure false
      | bound ty' => exact adds_types h .contravariant ty ty'

theorem adds_anyM_constraint (h : ∀ i j, Adds (params i j)) (required : Constraint)
    (candidate : List Constraint) :
    Adds (candidate.anyM fun c => u.constraint params required c) :=
  adds_anyM fun c _ => adds_constraint h required c

theorem adds_constraints (h : ∀ i j, Adds (params i j)) (required candidate : List Constraint) :
    Adds (u.constraints params required candidate) := by
  unfold constraints
  split
  · exact adds_allM fun r _ => adds_anyM_constraint h r candidate
  · exact adds_pure false

/-- How two parameters are compared: they are paired already, or one of them is paired with another
one, or they are paired now and their constraints decide, if there are any. The first two depend on
the pairs alone, so that every unifier does the same there. -/
inductive ParamStep (u : Unifier) (depth i j : Nat) (pairs : Pairing) : Prop
  | known (mem : (i, j) ∈ pairs)
      (run : ∀ u' : Unifier, (u'.params (depth + 1) i j).run pairs = (true, pairs))
  | refused (conflict : ¬OneToOne ((i, j) :: pairs))
      (run : ∀ u' : Unifier, (u'.params (depth + 1) i j).run pairs = (false, pairs))
  | undeclared (free : ∀ p ∈ pairs, p.1 ≠ i ∧ p.2 ≠ j)
      (missing : u.required[i]? = none ∨ u.candidate[j]? = none)
      (run : (u.params (depth + 1) i j).run pairs = (false, (i, j) :: pairs))
  | compared (free : ∀ p ∈ pairs, p.1 ≠ i ∧ p.2 ≠ j) {required candidate : GenericParam}
      (declared : u.required[i]? = some required) (offered : u.candidate[j]? = some candidate)
      (run : ∀ (u' : Unifier) {required candidate : GenericParam},
        u'.required[i]? = some required → u'.candidate[j]? = some candidate →
          (u'.params (depth + 1) i j).run pairs = (u'.constraints (u'.params depth)
            required.constraints candidate.constraints).run ((i, j) :: pairs))

theorem paramStep (u : Unifier) (depth i j : Nat) (pairs : Pairing) :
    u.ParamStep depth i j pairs := by
  by_cases known : (i, j) ∈ pairs
  · refine .known known fun u' => ?_
    rw [run_params_succ, if_pos known]
  · by_cases conflict : (pairs.any fun p => p.1 = i ∨ p.2 = j) = true
    · refine .refused (fun hone => ?_) fun u' => ?_
      · obtain ⟨p, hp, hor⟩ := List.any_eq_true.1 conflict
        have hsame := hone p (List.mem_cons_of_mem _ hp) _ List.mem_cons_self
        have hi : p.1 = i := (of_decide_eq_true hor).elim id hsame.2
        exact known (Prod.ext hi (hsame.1 hi) ▸ hp)
      · rw [run_params_succ, if_neg known, if_pos conflict]
    · have hfree : ∀ p ∈ pairs, p.1 ≠ i ∧ p.2 ≠ j := fun p hp => not_or.1 fun hor =>
        conflict (List.any_eq_true.2 ⟨p, hp, decide_eq_true hor⟩)
      cases hrequired : u.required[i]? with
      | none =>
          refine .undeclared hfree (Or.inl hrequired) ?_
          rw [run_params_succ, if_neg known, if_neg conflict]
          simp only [hrequired]
      | some required =>
          cases hcandidate : u.candidate[j]? with
          | none =>
              refine .undeclared hfree (Or.inr hcandidate) ?_
              rw [run_params_succ, if_neg known, if_neg conflict]
              simp only [hrequired, hcandidate]
          | some candidate =>
              refine .compared hfree hrequired hcandidate fun u' _ _ hr hc => ?_
              rw [run_params_succ, if_neg known, if_neg conflict]
              simp only [hr, hc]

/-- Comparing parameters only adds pairs, however deep it goes. -/
theorem adds_params (u : Unifier) (depth i j : Nat) : Adds (u.params depth i j) := by
  induction depth generalizing i j with
  | zero => exact adds_pure false
  | succ depth ih =>
      intro pairs hpairs
      cases u.paramStep depth i j pairs with
      | known _ run =>
          rw [run]
          exact hpairs.extends_self
      | refused _ run =>
          rw [run]
          exact hpairs.extends_self
      | undeclared free _ run =>
          rw [run]
          exact hpairs.extends_cons free
      | compared free declared offered run =>
          have hpaired := hpairs.extends_cons free
          rw [run u declared offered]
          exact hpaired.trans (adds_constraints ih _ _ _ hpaired.oneToOne)

/-- A parameter that is paired fits no other one. -/
theorem params_of_paired {pairs : Pairing} (hpairs : pairs.OneToOne) {i j k : Nat}
    (paired : (i, j) ∈ pairs) (other : k ≠ j) (depth : Nat) :
    (u.params depth i k).run pairs = (false, pairs) := by
  cases depth with
  | zero => rfl
  | succ depth =>
      cases u.paramStep depth i k pairs with
      | known mem => exact absurd ((hpairs _ mem _ paired).1 rfl) other
      | refused _ run => exact run u
      | undeclared free => exact absurd rfl (free _ paired).1
      | compared free => exact absurd rfl (free _ paired).1

/-- After a comparison the parameters are paired, also if it has failed, unless every unifier
refuses them as the pairs are. -/
theorem mem_or_refused (u : Unifier) (depth i j : Nat) {pairs : Pairing} (hpairs : pairs.OneToOne) :
    (i, j) ∈ ((u.params depth i j).run pairs).2 ∨
      ∀ u' : Unifier, (u'.params depth i j).run pairs = (false, pairs) := by
  cases depth with
  | zero => exact Or.inr fun u' => rfl
  | succ depth =>
      cases u.paramStep depth i j pairs with
      | known mem run =>
          rw [run]
          exact Or.inl mem
      | refused _ run => exact Or.inr run
      | undeclared _ _ run =>
          rw [run]
          exact Or.inl List.mem_cons_self
      | compared free declared offered run =>
          rw [run u declared offered]
          have hadds := adds_constraints (u := u) (u.adds_params depth)
          exact Or.inl ((hadds _ _ _ (hpairs.cons free)).kept List.mem_cons_self)

/-- Parameters that fit are paired. -/
theorem mem_of_params {depth i j : Nat} {pairs pairs' : Pairing} (hpairs : pairs.OneToOne)
    (h : (u.params depth i j).run pairs = (true, pairs')) : (i, j) ∈ pairs' := by
  rcases u.mem_or_refused depth i j hpairs with hpaired | hrefused
  · rwa [h] at hpaired
  · rw [hrefused] at h
    exact elim_of_failed h

/-- If a parameter fits one of several different ones, those before that one are refused as the
pairs are. -/
theorem exists_first_of_anyM {depth i : Nat} {js : List Nat} {pairs pairs' : Pairing}
    (h : (js.anyM (u.params depth i)).run pairs = (true, pairs')) (distinct : js.Nodup)
    (hpairs : pairs.OneToOne) : ∃ before j after, js = before ++ j :: after ∧
      (∀ k ∈ before, ∀ u' : Unifier, (u'.params depth i k).run pairs = (false, pairs)) ∧
      (u.params depth i j).run pairs = (true, pairs') := by
  induction js with
  | nil => exact elim_of_failed h
  | cons j js ih =>
      obtain ⟨hj, hjs⟩ := List.nodup_cons.1 distinct
      rw [StateM.run_anyM_cons] at h
      split at h
      · rename_i hfits
        obtain ⟨-, rfl⟩ := Prod.mk.inj h
        exact ⟨[], j, js, rfl, by simp, Prod.ext hfits rfl⟩
      · -- It failed: either it is paired now, and nothing after it fits, or it is refused.
        rcases u.mem_or_refused depth i j hpairs with hpaired | hrefused
        · have hmiddle := (u.adds_params depth i j pairs hpairs).oneToOne
          have hothers : ∀ k ∈ js, (u.params depth i k).run _ = (false, _) := fun k hk =>
            params_of_paired hmiddle hpaired (fun hkj => hj (hkj ▸ hk)) depth
          rw [← List.append_nil js, StateM.run_anyM_append hothers] at h
          exact elim_of_failed h
        · rw [hrefused u] at h
          obtain ⟨before, k, after, rfl, hbefore, hrun⟩ := ih h hjs
          refine ⟨j :: before, k, after, rfl, ?_, hrun⟩
          exact List.forall_mem_cons.2 ⟨hrefused, hbefore⟩

end Unifier

end Contracts
