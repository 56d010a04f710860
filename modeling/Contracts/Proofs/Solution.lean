import Contracts.Proofs.Correspondence
import Mathlib.Data.Finset.SDiff

set_option autoImplicit false

/-! # What unification decides

A unifier looks for a one-to-one pairing of generic parameters under which the types of two
signatures fit, position by position, and the constraints of paired parameters correspond. Said
without the search, this is a `Unifier.Solution`.

If a unifier accepts and tries nothing twice, its own pairs are a solution
(`Unifier.exists_solution`). Conversely it finds out that there is a solution if it has no choice,
that is, if no parameter of the candidate is bounded by two parameters
(`Unifier.fits_of_solution`). Where no bound mentions a generic parameter, both hold, and
unification is exact (`Registry.unifies_iff_of_concrete`). -/

namespace Contracts

namespace Unifier

open Pairing

/-! ## Solutions -/

/-- Both parameters are there, they have equally many constraints, and each required one has a
counterpart. -/
def Covers (u : Unifier) (pairs : Pairing) (i j : Nat) : Prop :=
  ∃ p q, u.required[i]? = some p ∧ u.candidate[j]? = some q ∧
    p.constraints.length = q.constraints.length ∧
    ∀ a ∈ p.constraints, ∃ b ∈ q.constraints, u.Corresponds pairs a b

/-- A candidate's result fits the required one when parameters are paired like this: there is none
on either side, or generic parameters are paired, or the candidate's concrete type is assignable to
the required one. -/
inductive FitsResult (u : Unifier) (pairs : Pairing) : TypeRef → TypeRef → Prop
  | void : FitsResult u pairs .void .void
  | param {i j : Nat} (paired : (i, j) ∈ pairs) : FitsResult u pairs (.param i) (.param j)
  | concrete {required candidate : TypeRef} (hrequired : required.isParam = false)
      (hcandidate : candidate.isParam = false) (some_required : required ≠ .void)
      (some_candidate : candidate ≠ .void)
      (assignable : u.registry.isAssignable candidate required = true) :
      FitsResult u pairs required candidate

/-- A pairing that shows that the candidate's signature can stand in for the required one. -/
structure Solution (u : Unifier) (pairs : Pairing) (required candidate : Signature) : Prop where
  oneToOne : pairs.OneToOne
  covers : ∀ i j, (i, j) ∈ pairs → u.Covers pairs i j
  params : List.Forall₂ (u.FitsAt pairs) required.params candidate.params
  ret : u.FitsResult pairs required.ret candidate.ret

variable {u : Unifier} {pairs pairs' : Pairing} {i j depth : Nat}

theorem Covers.mono (h : u.Covers pairs i j) (kept : pairs ⊆ pairs') : u.Covers pairs' i j := by
  obtain ⟨p, q, hp, hq, hlength, hcounterparts⟩ := h
  refine ⟨p, q, hp, hq, hlength, fun a ha => ?_⟩
  obtain ⟨b, hb, hab⟩ := hcounterparts a ha
  exact ⟨b, hb, hab.mono kept⟩

/-! ## What is accepted has a solution -/

/-- Pairs have been added, and the constraints of each new one correspond. -/
structure Settles (u : Unifier) (pairs pairs' : Pairing) : Prop extends pairs.Extends pairs' where
  covers : ∀ i j, (i, j) ∈ pairs' → (i, j) ∈ pairs ∨ u.Covers pairs' i j

theorem settles_self (hpairs : pairs.OneToOne) : u.Settles pairs pairs :=
  ⟨hpairs.extends_self, fun _ _ => Or.inl⟩

theorem Settles.trans {a b c : Pairing} (hab : u.Settles a b) (hbc : u.Settles b c) :
    u.Settles a c := by
  refine ⟨hab.toExtends.trans hbc.toExtends, fun i j hij => ?_⟩
  rcases hbc.covers i j hij with hb | hcovers
  · exact (hab.covers i j hb).imp id fun h => h.mono hbc.kept
  · exact Or.inr hcovers

theorem settles_allM {α : Type} {f : α → StateM Pairing Bool} {xs : List α}
    (h : ∀ x ∈ xs, ∀ {a b : Pairing}, a.OneToOne → (f x).run a = (true, b) → u.Settles a b)
    (hpairs : pairs.OneToOne) (hrun : (xs.allM f).run pairs = (true, pairs')) :
    u.Settles pairs pairs' := by
  induction xs generalizing pairs with
  | nil =>
      obtain ⟨-, rfl⟩ := Prod.mk.inj hrun
      exact settles_self hpairs
  | cons x xs ih =>
      obtain ⟨hfirst, hothers⟩ := List.forall_mem_cons.1 h
      obtain ⟨middle, hx, hrest⟩ := (StateM.run_allM_cons_eq_true_iff ..).1 hrun
      have hmiddle := hfirst hpairs hx
      exact hmiddle.trans (ih hothers hmiddle.oneToOne hrest)

/-- At every depth, parameters that fit are settled, with all that are paired on the way. -/
theorem settles_params
    (once : ∀ p ∈ u.required, ∀ q ∈ u.candidate, u.TriesOnce p.constraints q.constraints)
    (hpairs : pairs.OneToOne) (hrun : (u.params depth i j).run pairs = (true, pairs')) :
    u.Settles pairs pairs' := by
  induction depth generalizing i j pairs pairs' with
  | zero => exact elim_of_failed hrun
  | succ depth ih =>
      cases u.paramStep depth i j pairs with
      | known _ run =>
          rw [run] at hrun
          obtain ⟨-, rfl⟩ := Prod.mk.inj hrun
          exact settles_self hpairs
      | refused _ run =>
          rw [run] at hrun
          exact elim_of_failed hrun
      | undeclared _ _ run =>
          rw [run] at hrun
          exact elim_of_failed hrun
      | compared free declared offered run =>
          rw [run u declared offered] at hrun
          have hpaired := hpairs.cons free
          have honce := once _ (List.mem_of_getElem? declared) _ (List.mem_of_getElem? offered)
          have distinct := honce.nodup hpaired hrun
          obtain ⟨hlength, -, hall⟩ := run_constraints_eq_true_iff.1 hrun
          -- All pairs made by comparing the constraints are settled by induction.
          have hsettles : u.Settles ((i, j) :: pairs) pairs' := by
            refine settles_allM (fun i' _ a b ha hany => ?_) hpaired hall
            obtain ⟨-, j', -, -, -, hfits⟩ := exists_first_of_anyM hany distinct ha
            exact ih ha hfits
          have hcovers : u.Covers pairs' i j :=
            ⟨_, _, declared, offered, hlength, exists_corresponds hpaired hrun⟩
          refine ⟨(hpairs.extends_cons free).trans hsettles.toExtends, fun i' j' hij => ?_⟩
          rcases hsettles.covers i' j' hij with hmem | hcovers'
          · rcases List.mem_cons.1 hmem with heq | hmem
            · obtain ⟨rfl, rfl⟩ := Prod.mk.inj heq
              exact Or.inr hcovers
            · exact Or.inl hmem
          · exact Or.inr hcovers'

theorem settles_types
    (once : ∀ p ∈ u.required, ∀ q ∈ u.candidate, u.TriesOnce p.constraints q.constraints)
    {variance : Variance} {a b : TypeRef} (hpairs : pairs.OneToOne)
    (hrun : (u.types u.paramPair variance a b).run pairs = (true, pairs')) :
    u.Settles pairs pairs' := by
  rcases run_types_eq_true_iff.1 hrun with ⟨i, j, -, -, hrun⟩ | ⟨-, -, -, rfl⟩
  · exact settles_params once hpairs hrun
  · exact settles_self hpairs

theorem fitsAt_of_types {a b : TypeRef} (hpairs : pairs.OneToOne)
    (hrun : (u.types u.paramPair .contravariant a b).run pairs = (true, pairs')) :
    u.FitsAt pairs' a b := by
  rcases run_types_eq_true_iff.1 hrun with ⟨i, j, rfl, rfl, hrun⟩ | ⟨ha, hb, hfits, -⟩
  · exact .param (mem_of_params hpairs hrun)
  · exact .concrete ha hb (concrete_contravariant_iff.1 hfits)

variable {required candidate : Signature}

/-- In signatures that unify, the types fit under the pairs that have been made. -/
theorem fits_of_signature (length : required.params.length = candidate.params.length)
    (hrun : (u.signature required candidate).run [] = (true, pairs)) :
    List.Forall₂ (u.FitsAt pairs) required.params candidate.params ∧
      u.FitsResult pairs required.ret candidate.ret := by
  obtain ⟨middle, hparams, hret⟩ := run_signature_eq_true_iff.1 hrun
  have hadds : ∀ variance a b, Adds (u.types u.paramPair variance a b) :=
    adds_types (u.adds_params _)
  have hall : ∀ p ∈ required.params.zip candidate.params,
      Adds (u.types u.paramPair .contravariant p.1 p.2) := fun p _ => hadds .contravariant p.1 p.2
  have hpositions := forall_of_allM (fun (p : TypeRef × TypeRef) pairs => u.FitsAt pairs p.1 p.2)
    hparams oneToOne_nil hall (fun _ _ _ hkept hfits => hfits.mono hkept)
    fun _ _ _ _ ha hrun => fitsAt_of_types ha hrun
  have hmiddle := adds_allM hall [] oneToOne_nil
  rw [hparams] at hmiddle
  rcases hret with ⟨hr, hc, rfl⟩ | ⟨hr, hc, hrun⟩
  · refine ⟨List.forall₂_iff_zip.2 ⟨length, fun hmem => hpositions _ hmem⟩, ?_⟩
    rw [hr, hc]
    exact .void
  · -- The results may pair one more.
    have hlast := hadds .covariant required.ret candidate.ret middle hmiddle.oneToOne
    rw [hrun] at hlast
    refine ⟨List.forall₂_iff_zip.2 ⟨length, fun hmem => (hpositions _ hmem).mono hlast.kept⟩, ?_⟩
    rcases run_types_eq_true_iff.1 hrun with ⟨i, j, hi, hj, hrun⟩ | ⟨hi, hj, hfits, -⟩
    · exact hi ▸ hj ▸ .param (mem_of_params hmiddle.oneToOne hrun)
    · exact .concrete hi hj hr hc (concrete_covariant_iff.1 hfits)

/-- In signatures that unify, all pairs that have been made are settled, if nothing is tried
twice. -/
theorem settles_signature
    (once : ∀ p ∈ u.required, ∀ q ∈ u.candidate, u.TriesOnce p.constraints q.constraints)
    (hrun : (u.signature required candidate).run [] = (true, pairs)) : u.Settles [] pairs := by
  obtain ⟨middle, hparams, hret⟩ := run_signature_eq_true_iff.1 hrun
  have hfirst : u.Settles [] middle :=
    settles_allM (fun _ _ _ _ ha hrun => settles_types once ha hrun) oneToOne_nil hparams
  rcases hret with ⟨-, -, rfl⟩ | ⟨-, -, hrun⟩
  · exact hfirst
  · exact hfirst.trans (settles_types once hfirst.oneToOne hrun)

/-- **What is accepted has a solution.** If nothing is tried twice, the pairs that unification has
made are one. -/
theorem exists_solution
    (once : ∀ p ∈ u.required, ∀ q ∈ u.candidate, u.TriesOnce p.constraints q.constraints)
    (length : required.params.length = candidate.params.length)
    (fits : ((u.signature required candidate).run []).1 = true) :
    ∃ pairs, u.Solution pairs required candidate := by
  obtain ⟨pairs, hrun⟩ : ∃ pairs, (u.signature required candidate).run [] = (true, pairs) :=
    ⟨_, Prod.ext fits rfl⟩
  have hsettles := settles_signature once hrun
  obtain ⟨hparams, hret⟩ := fits_of_signature length hrun
  refine ⟨pairs, hsettles.oneToOne, fun i j hij => ?_, hparams, hret⟩
  exact (hsettles.covers i j hij).resolve_left List.not_mem_nil

/-! ## Without a choice a solution is found -/

/-- The required generic parameters that are in no pair. -/
def unmatched (u : Unifier) (pairs : Pairing) : Finset Nat :=
  Finset.range u.required.length \ (pairs.map Prod.fst).toFinset

theorem unmatched_card_le (pairs : Pairing) : (u.unmatched pairs).card ≤ u.required.length :=
  (Finset.card_le_card Finset.sdiff_subset).trans_eq (Finset.card_range _)

theorem unmatched_card_mono (h : pairs ⊆ pairs') :
    (u.unmatched pairs').card ≤ (u.unmatched pairs).card := by
  refine Finset.card_le_card (Finset.sdiff_subset_sdiff (Finset.Subset.refl _) fun i hi => ?_)
  exact List.mem_toFinset.2 (List.map_subset _ h (List.mem_toFinset.1 hi))

/-- Each pair takes one more parameter away. -/
theorem unmatched_card_cons_lt (hi : i < u.required.length)
    (free : ∀ p ∈ pairs, p.1 ≠ i ∧ p.2 ≠ j) :
    (u.unmatched ((i, j) :: pairs)).card < (u.unmatched pairs).card := by
  have hnew : i ∈ u.unmatched pairs := by
    refine Finset.mem_sdiff.2 ⟨Finset.mem_range.2 hi, fun hmem => ?_⟩
    obtain ⟨p, hp, rfl⟩ := List.mem_map.1 (List.mem_toFinset.1 hmem)
    exact (free p hp).1 rfl
  have herase : u.unmatched ((i, j) :: pairs) = (u.unmatched pairs).erase i := by
    rw [unmatched, List.map_cons, List.toFinset_cons, Finset.sdiff_insert]
    rfl
  rw [herase]
  exact Finset.card_erase_lt_of_mem hnew

/-- Started from pairs of the target that leave fewer than `bound` parameters without one, the
computation succeeds and pairs nothing that the target does not. -/
def SucceedsIn (u : Unifier) (target : Pairing) (bound : Nat) (m : StateM Pairing Bool) : Prop :=
  ∀ pairs : Pairing, pairs ⊆ target → (u.unmatched pairs).card < bound →
    ∃ pairs', m.run pairs = (true, pairs') ∧ pairs ⊆ pairs' ∧ pairs' ⊆ target

variable {target : Pairing} {bound : Nat}

theorem succeedsIn_allM {α : Type} {f : α → StateM Pairing Bool} {xs : List α}
    (h : ∀ x ∈ xs, u.SucceedsIn target bound (f x)) : u.SucceedsIn target bound (xs.allM f) := by
  induction xs with
  | nil => exact fun pairs hsub _ => ⟨pairs, rfl, List.Subset.refl _, hsub⟩
  | cons x xs ih =>
      obtain ⟨hfirst, hothers⟩ := List.forall_mem_cons.1 h
      intro pairs hsub hfew
      obtain ⟨middle, hx, hkept, hmiddle⟩ := hfirst pairs hsub hfew
      obtain ⟨pairs', hrest, hkept', hsub'⟩ := ih hothers middle hmiddle
        (Nat.lt_of_le_of_lt (unmatched_card_mono hkept) hfew)
      refine ⟨pairs', ?_, fun p hp => hkept' (hkept hp), hsub'⟩
      exact (StateM.run_allM_cons_eq_true_iff ..).2 ⟨middle, hx, hrest⟩

/-- No parameter of the candidate is bounded by two generic parameters. -/
def Forced (candidate : List GenericParam) : Prop :=
  ∀ p ∈ candidate, (paramBounds p.constraints).length ≤ 1

theorem Forced.nodup {candidate : List GenericParam} (forced : Forced candidate) {p : GenericParam}
    (hp : p ∈ candidate) : (paramBounds p.constraints).Nodup :=
  List.nodup_iff_count_le_one.2 fun _ => List.count_le_length.trans (forced p hp)

/-- At every depth, parameters of the target fit as long as fewer are without a pair than the
depth. -/
theorem succeedsIn_params (forced : Forced u.candidate) (oneToOne : target.OneToOne)
    (covers : ∀ i j, (i, j) ∈ target → u.Covers target i j) (depth : Nat)
    (hij : (i, j) ∈ target) : u.SucceedsIn target depth (u.params depth i j) := by
  induction depth generalizing i j with
  | zero => exact fun _ _ hfew => absurd hfew (Nat.not_lt_zero _)
  | succ depth ih =>
      intro pairs hsub hfew
      have hcons : (i, j) :: pairs ⊆ target := List.cons_subset.2 ⟨hij, hsub⟩
      obtain ⟨p, q, hp, hq, hlength, hcounterparts⟩ := covers i j hij
      cases u.paramStep depth i j pairs with
      | known _ run => exact ⟨pairs, run u, List.Subset.refl _, hsub⟩
      | refused conflict => exact absurd (oneToOne.mono hcons) conflict
      | undeclared _ missing => simp [hp, hq] at missing
      | compared free _ _ run =>
          have hfew' : (u.unmatched ((i, j) :: pairs)).card < depth := by
            have hi : i < u.required.length := (List.getElem?_eq_some_iff.1 hp).1
            exact Nat.lt_of_lt_of_le (unmatched_card_cons_lt hi free) (Nat.le_of_lt_succ hfew)
          -- A bound by a parameter has its counterpart in the only one that there is.
          have hbounds : ∀ i' ∈ paramBounds p.constraints, u.SucceedsIn target depth
              ((paramBounds q.constraints).anyM (u.params depth i')) := by
            intro i' hi'
            obtain ⟨b, hb, hcorresponds⟩ := hcounterparts _ (mem_paramBounds_iff.1 hi')
            obtain ⟨j', rfl, hij'⟩ := hcorresponds.exists_paired
            have honly : paramBounds q.constraints = [j'] := by
              have hj' := mem_paramBounds_iff.2 hb
              have hone := forced q (List.mem_of_getElem? hq)
              obtain ⟨k, hk⟩ := List.length_eq_one_iff.1
                (Nat.le_antisymm hone (List.length_pos_of_mem hj'))
              rw [hk] at hj' ⊢
              rw [List.mem_singleton.1 hj']
            intro pairs hsub hfew
            obtain ⟨pairs', hrun, hends⟩ := ih hij' pairs hsub hfew
            refine ⟨pairs', ?_, hends⟩
            rw [honly, StateM.run_anyM_cons, hrun, if_pos rfl]
          obtain ⟨pairs', hrun, hkept, hsub'⟩ := succeedsIn_allM hbounds _ hcons hfew'
          refine ⟨pairs', ?_, (List.cons_subset.1 hkept).2, hsub'⟩
          rw [run u hp hq]
          refine run_constraints_eq_true_iff.2 ⟨hlength, fun a ha hparam => ?_, hrun⟩
          obtain ⟨b, hb, hcorresponds⟩ := hcounterparts a ha
          exact ⟨b, hb, (agrees_iff hparam).2 hcorresponds⟩

theorem succeedsIn_concrete {variance : Variance} {a b : TypeRef} (ha : a.isParam = false)
    (hb : b.isParam = false) (fits : u.concrete variance a b = true) :
    u.SucceedsIn target bound (u.types u.paramPair variance a b) :=
  fun pairs hsub _ => ⟨pairs, run_types_eq_true_iff.2 (Or.inr ⟨ha, hb, fits, rfl⟩),
    List.Subset.refl _, hsub⟩

/-- The results of two signatures unify: there is none on either side, or the types do. -/
theorem exists_run_result {a b : TypeRef} (hresult : u.FitsResult target a b)
    (hpair : ∀ {i j}, (i, j) ∈ target → u.SucceedsIn target bound (u.paramPair i j))
    (hsub : pairs ⊆ target) (hfew : (u.unmatched pairs).card < bound) :
    ∃ pairs', a = .void ∧ b = .void ∧ pairs = pairs' ∨
      a ≠ .void ∧ b ≠ .void ∧ (u.types u.paramPair .covariant a b).run pairs = (true, pairs') := by
  cases hresult with
  | void => exact ⟨pairs, Or.inl ⟨rfl, rfl, rfl⟩⟩
  | param paired =>
      obtain ⟨pairs', hrun, -⟩ := hpair paired pairs hsub hfew
      exact ⟨pairs', Or.inr ⟨by simp, by simp, hrun⟩⟩
  | concrete ha hb some_required some_candidate assignable =>
      obtain ⟨pairs', hrun, -⟩ :=
        succeedsIn_concrete ha hb (concrete_covariant_iff.2 assignable) pairs hsub hfew
      exact ⟨pairs', Or.inr ⟨some_required, some_candidate, hrun⟩⟩

/-- **A solution is found**, whichever it is, if there is no choice on the way. -/
theorem fits_of_solution (forced : Forced u.candidate) {required candidate : Signature}
    (solution : u.Solution target required candidate) :
    ((u.signature required candidate).run []).1 = true := by
  -- The depth that parameters are compared to exceeds the number of those without a pair.
  have hfew : ∀ pairs, (u.unmatched pairs).card < u.required.length + 1 :=
    fun pairs => Nat.lt_succ_of_le (unmatched_card_le pairs)
  have hpair : ∀ {i j}, (i, j) ∈ target →
      u.SucceedsIn target (u.required.length + 1) (u.paramPair i j) :=
    fun hij => succeedsIn_params forced solution.oneToOne solution.covers _ hij
  have hposition : ∀ p ∈ required.params.zip candidate.params, u.SucceedsIn target
      (u.required.length + 1) (u.types u.paramPair .contravariant p.1 p.2) := by
    intro p hp
    obtain ⟨a, b⟩ := p
    cases (List.forall₂_iff_zip.1 solution.params).2 hp with
    | param paired => exact hpair paired
    | concrete ha hb meets => exact succeedsIn_concrete ha hb (concrete_contravariant_iff.2 meets)
  obtain ⟨middle, hparams, -, hsub⟩ :=
    succeedsIn_allM hposition [] (List.nil_subset _) (hfew [])
  obtain ⟨pairs', hret⟩ := exists_run_result solution.ret hpair hsub (hfew middle)
  exact congrArg Prod.fst (run_signature_eq_true_iff.2 ⟨middle, hparams, hret⟩)

end Unifier

/-! ## Unification is exact -/

namespace Registry

variable {r : Registry} {substitute : Bool} {required candidate : Signature}

/-- Where no parameter of the candidate is bounded by two, unification finds out whether there is a
solution. -/
theorem unifies_iff_of_forced (forced : Unifier.Forced candidate.generics) :
    r.unifies substitute required candidate = true ↔
      required.params.length = candidate.params.length ∧
        required.generics.length = candidate.generics.length ∧
        ∃ pairs, (r.unifier substitute required candidate).Solution pairs required candidate := by
  refine unifies_eq_true_iff.trans (and_congr_right fun hparams => and_congr_right fun _ => ?_)
  constructor
  · exact Unifier.exists_solution (fun p _ q hq => Or.inl (forced.nodup hq)) hparams
  · rintro ⟨pairs, solution⟩
    exact Unifier.fits_of_solution forced solution

/-- **Unification is exact where bounds are concrete.** If no generic parameter of the candidate is
bounded by another one, its signature unifies with the required one if and only if they have equally
many parameters, generic ones too, and generic parameters can be paired one to one so that all types
and constraints fit. -/
theorem unifies_iff_of_concrete
    (concrete : ∀ p ∈ candidate.generics, ∀ c ∈ p.constraints, c.param? = none) :
    r.unifies substitute required candidate = true ↔
      required.params.length = candidate.params.length ∧
        required.generics.length = candidate.generics.length ∧
        ∃ pairs, (r.unifier substitute required candidate).Solution pairs required candidate := by
  refine unifies_iff_of_forced fun p hp => ?_
  rw [paramBounds, List.filterMap_eq_nil_iff.2 (concrete p hp)]
  exact Nat.zero_le 1

/-- A required signature whose first generic parameter is bounded. -/
def keyed : Signature where
  params := [.param 0, .param 1, .str]
  ret := .param 1
  generics := [⟨"K", [.reference, .bound .str]⟩, ⟨"V", []⟩]

/-- A candidate that lists its generic parameters the other way round. -/
def swapped (second : Nat) : Signature where
  params := [.param 1, .param second, .object]
  ret := .param 0
  generics := [⟨"W", []⟩, ⟨"L", [.bound .object, .reference]⟩]

/-- With substitution the parameters can be paired crosswise, unless the candidate mentions one of
them in two places that require different ones. -/
theorem unifies_iff_of_concrete_swapped :
    (∀ second, ∀ p ∈ (swapped second).generics, ∀ c ∈ p.constraints, c.param? = none) ∧
      (∃ pairs, (unifier {} true keyed (swapped 0)).Solution pairs keyed (swapped 0)) ∧
      ¬∃ pairs, (unifier {} true keyed (swapped 1)).Solution pairs keyed (swapped 1) := by
  have concrete : ∀ second, ∀ p ∈ (swapped second).generics, ∀ c ∈ p.constraints,
      c.param? = none :=
    fun _ => show ∀ p ∈ (swapped 0).generics, ∀ c ∈ p.constraints, c.param? = none by decide
  refine ⟨concrete, ?_, fun solved => ?_⟩
  · have hunifies : unifies {} true keyed (swapped 0) = true := by decide +kernel
    exact ((unifies_iff_of_concrete (concrete 0)).1 hunifies).2.2
  · have hrefused : unifies {} true keyed (swapped 1) = false := by decide +kernel
    have hunifies : unifies {} true keyed (swapped 1) = true :=
      (unifies_iff_of_concrete (concrete 1)).2 ⟨rfl, rfl, solved⟩
    exact Bool.false_ne_true (hrefused.symm.trans hunifies)

end Registry

end Contracts
