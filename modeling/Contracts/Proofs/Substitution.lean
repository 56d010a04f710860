import Contracts.Proofs.Correspondence

set_option autoImplicit false

/-! # Substitution and generic parameters

With substitution more pairs of concrete types fit. A signature that unifies without substitution
also unifies with it (`Registry.unifies_of_unrepeated`), as long as the required generic parameters
repeat no constraint, or the candidate's repeat no parameter among their bounds.

Comparisons of concrete types leave the pairs alone, so what could go wrong is a comparison of
generic parameters that fails without substitution: it may fail later with substitution, or not at
all, and leave more pairs behind. But parameters that have been paired by a failed comparison fit no
other ones, so the list of constraints they are from fails too, unless the very same parameter is
tried once more; and so on up to the whole signature. When nothing is tried twice, both comparisons
make the same pairs all the way. The same holds of any comparison that is as lax (`Unifier.Relaxes`)
and tries the same parameters in the same order. -/

namespace Contracts

/-- The required generic parameters repeat no constraint, or the candidate's bound by no parameter
twice. -/
def Unrepeated (required candidate : List GenericParam) : Prop :=
  (∀ p ∈ required, p.constraints.Nodup) ∨ ∀ p ∈ candidate, (paramBounds p.constraints).Nodup

/-! ## Doing the same on success -/

namespace Pairing

/-- Whenever the first computation succeeds, the second one does so and leaves the same pairs. -/
def Follows (m m' : StateM Pairing Bool) : Prop :=
  ∀ pairs pairs' : Pairing, pairs.OneToOne → m.run pairs = (true, pairs') →
    m'.run pairs = (true, pairs')

theorem follows_allM {α : Type} {f f' : α → StateM Pairing Bool} {xs : List α}
    (adds : ∀ x ∈ xs, Adds (f x)) (h : ∀ x ∈ xs, Follows (f x) (f' x)) :
    Follows (xs.allM f) (xs.allM f') := by
  induction xs with
  | nil => exact fun _ _ _ h => h
  | cons x xs ih =>
      intro pairs pairs' hpairs hrun
      obtain ⟨middle, hfirst, hrest⟩ := (StateM.run_allM_cons_eq_true_iff ..).1 hrun
      have hmiddle := adds x List.mem_cons_self pairs hpairs
      rw [hfirst] at hmiddle
      refine (StateM.run_allM_cons_eq_true_iff ..).2 ⟨middle, ?_, ?_⟩
      · exact h x List.mem_cons_self pairs middle hpairs hfirst
      · exact ih (fun y hy => adds y (List.mem_cons_of_mem _ hy))
          (fun y hy => h y (List.mem_cons_of_mem _ hy)) _ _ hmiddle.oneToOne hrest

end Pairing

/-- The same constraints, and those that bound by parameters in the same order. -/
structure Rearranged (constraints constraints' : List Constraint) : Prop where
  perm : constraints.Perm constraints'
  params : paramBounds constraints = paramBounds constraints'

theorem Rearranged.refl (constraints : List Constraint) : Rearranged constraints constraints :=
  ⟨.refl _, rfl⟩

theorem exists_getElem?_of_forall₂ {α β : Type} {rel : α → β → Prop} {xs : List α} {ys : List β}
    (h : List.Forall₂ rel xs ys) {i : Nat} {x : α} (hx : xs[i]? = some x) :
    ∃ y, ys[i]? = some y ∧ rel x y := by
  induction h generalizing i with
  | nil => simp at hx
  | cons hfirst _ ih =>
      cases i with
      | zero =>
          obtain rfl := Option.some.inj hx
          exact ⟨_, rfl, hfirst⟩
      | succ i => exact ih hx

namespace Unifier

open Pairing

variable {u u' : Unifier}

/-! ## Comparing as laxly and in the same order -/

/-- The second unifier compares the same generic parameters, up to how the constraints of each one
are listed, and every two concrete types that fit in the first one fit in it. -/
structure Relaxes (same : List Constraint → List Constraint → Prop) (u u' : Unifier) : Prop where
  required : List.Forall₂ (fun p p' => same p.constraints p'.constraints) u.required u'.required
  candidate : List.Forall₂ (fun p p' => same p.constraints p'.constraints) u.candidate u'.candidate
  concrete : ∀ {variance : Variance} {a b : TypeRef}, u.concrete variance a b = true →
    u'.concrete variance a b = true

theorem Relaxes.agrees {same : List Constraint → List Constraint → Prop}
    (relaxes : Relaxes same u u') {a b : Constraint} (h : u.agrees a b = true) :
    u'.agrees a b = true := by
  unfold Unifier.agrees at *
  split at h
  · rfl
  · rfl
  · simp only [Bool.and_eq_true] at h ⊢
    exact ⟨h.1, relaxes.concrete h.2⟩
  · exact absurd h (by simp)

theorem Relaxes.follows_types (relaxes : Relaxes Rearranged u u')
    {params params' : Nat → Nat → StateM Pairing Bool}
    (h : ∀ i j, Follows (params i j) (params' i j)) (variance : Variance)
    (required candidate : TypeRef) :
    Follows (u.types params variance required candidate)
      (u'.types params' variance required candidate) := by
  intro pairs pairs' hpairs hrun
  rcases run_types_eq_true_iff.1 hrun with ⟨i, j, rfl, rfl, hrun⟩ | ⟨hr, hc, hfits, rfl⟩
  · exact h i j _ _ hpairs hrun
  · exact run_types_eq_true_iff.2 (Or.inr ⟨hr, hc, relaxes.concrete hfits, rfl⟩)

/-- Parameters are tried in turn. Those before the one that fits are refused by both. -/
theorem follows_anyM {depth i : Nat}
    (h : ∀ j, Follows (u.params depth i j) (u'.params depth i j)) {js : List Nat}
    (distinct : js.Nodup) :
    Follows (js.anyM (u.params depth i)) (js.anyM (u'.params depth i)) := by
  intro pairs pairs' hpairs hrun
  obtain ⟨before, j, after, rfl, hbefore, hfits⟩ := exists_first_of_anyM hrun distinct hpairs
  rw [StateM.run_anyM_append fun k hk => hbefore k hk u', StateM.run_anyM_cons,
    h j pairs pairs' hpairs hfits, if_pos rfl]

theorem Relaxes.follows_constraints (relaxes : Relaxes Rearranged u u') {depth : Nat}
    (h : ∀ i j, Follows (u.params depth i j) (u'.params depth i j))
    {required required' candidate candidate' : List Constraint}
    (hrequired : Rearranged required required') (hcandidate : Rearranged candidate candidate')
    (once : u.TriesOnce required candidate) :
    Follows (u.constraints (u.params depth) required candidate)
      (u'.constraints (u'.params depth) required' candidate') := by
  intro pairs pairs' hpairs hrun
  have distinct := once.nodup hpairs hrun
  obtain ⟨hlength, hagree, hall⟩ := run_constraints_eq_true_iff.1 hrun
  refine run_constraints_eq_true_iff.2 ⟨?_, ?_, ?_⟩
  · rw [← hrequired.perm.length_eq, ← hcandidate.perm.length_eq, hlength]
  · intro a ha hparam
    obtain ⟨b, hb, hab⟩ := hagree a (hrequired.perm.mem_iff.2 ha) hparam
    exact ⟨b, hcandidate.perm.mem_iff.1 hb, relaxes.agrees hab⟩
  · have hadds : ∀ i ∈ paramBounds required,
        Adds ((paramBounds candidate).anyM (u.params depth i)) :=
      fun i _ => adds_anyM fun j _ => u.adds_params depth i j
    rw [← hrequired.params, ← hcandidate.params]
    exact follows_allM hadds (fun i _ => follows_anyM (h i) distinct) pairs pairs' hpairs hall

/-- At every depth, parameters that fit in the first unifier fit in the second one, with the same
pairs. -/
theorem Relaxes.follows_params (relaxes : Relaxes Rearranged u u')
    (once : ∀ p ∈ u.required, ∀ q ∈ u.candidate, u.TriesOnce p.constraints q.constraints)
    (depth i j : Nat) : Follows (u.params depth i j) (u'.params depth i j) := by
  induction depth generalizing i j with
  | zero => exact fun _ _ _ h => h
  | succ depth ih =>
      intro pairs pairs' hpairs hrun
      cases u.paramStep depth i j pairs with
      | known _ run =>
          rw [run] at hrun
          rw [run, hrun]
      | refused _ run =>
          rw [run] at hrun
          exact elim_of_failed hrun
      | undeclared _ _ run =>
          rw [run] at hrun
          exact elim_of_failed hrun
      | compared free declared offered run =>
          obtain ⟨p', hp', hp⟩ := exists_getElem?_of_forall₂ relaxes.required declared
          obtain ⟨q', hq', hq⟩ := exists_getElem?_of_forall₂ relaxes.candidate offered
          have honce := once _ (List.mem_of_getElem? declared) _ (List.mem_of_getElem? offered)
          rw [run u declared offered] at hrun
          rw [run u' hp' hq']
          exact relaxes.follows_constraints ih hp hq honce _ _ (hpairs.cons free) hrun

theorem Relaxes.follows_signature (relaxes : Relaxes Rearranged u u')
    (once : ∀ p ∈ u.required, ∀ q ∈ u.candidate, u.TriesOnce p.constraints q.constraints)
    (required candidate : Signature) :
    Follows (u.signature required candidate) (u'.signature required candidate) := by
  have hpair : ∀ i j, Follows (u.paramPair i j) (u'.paramPair i j) := by
    unfold paramPair
    rw [← relaxes.required.length_eq]
    exact relaxes.follows_params once _
  have hadds : ∀ p ∈ required.params.zip candidate.params,
      Adds (u.types u.paramPair .contravariant p.1 p.2) :=
    fun p _ => adds_types (u.adds_params _) .contravariant p.1 p.2
  intro pairs pairs' hpairs hrun
  obtain ⟨middle, hparams, hret⟩ := run_signature_eq_true_iff.1 hrun
  have hmiddle := adds_allM hadds pairs hpairs
  rw [hparams] at hmiddle
  refine run_signature_eq_true_iff.2 ⟨middle, ?_, hret.imp id ?_⟩
  · exact follows_allM hadds (fun p _ => relaxes.follows_types hpair .contravariant p.1 p.2)
      pairs middle hpairs hparams
  · rintro ⟨hr, hc, hrun⟩
    exact ⟨hr, hc, relaxes.follows_types hpair .covariant _ _ _ _ hmiddle.oneToOne hrun⟩

/-- A signature that unifies in the first unifier does so in the second one. -/
theorem Relaxes.fits (relaxes : Relaxes Rearranged u u')
    (once : ∀ p ∈ u.required, ∀ q ∈ u.candidate, u.TriesOnce p.constraints q.constraints)
    {required candidate : Signature} (h : ((u.signature required candidate).run []).1 = true) :
    ((u'.signature required candidate).run []).1 = true :=
  congrArg Prod.fst
    (relaxes.follows_signature once required candidate [] _ oneToOne_nil (Prod.ext h rfl))

/-! ## Allowing substitution -/

theorem relaxes_substitute (u : Unifier) :
    Relaxes Rearranged u { u with substitute := true } where
  required := List.forall₂_same.2 fun p _ => .refl p.constraints
  candidate := List.forall₂_same.2 fun p _ => .refl p.constraints
  concrete := by
    intro variance a b h
    unfold concrete at *
    rw [if_pos (Or.inl rfl)]
    split at h
    · exact h
    · -- What fits exactly is the same type.
      have heq : b = a := by simpa [Registry.checkVariance] using h
      subst heq
      cases variance <;> simp [Registry.checkVariance, Registry.isAssignable_self]

end Unifier

/-- **Substitution takes no method away.** A signature that unifies with the required one without
substitution unifies with it with substitution, unless something is tried twice. -/
theorem Registry.unifies_of_unrepeated {r : Registry} {required candidate : Signature}
    (h : r.unifies false required candidate = true)
    (unrepeated : Unrepeated required.generics candidate.generics) :
    r.unifies true required candidate = true := by
  obtain ⟨hparams, hgenerics, hfits⟩ := unifies_eq_true_iff.1 h
  refine unifies_eq_true_iff.2 ⟨hparams, hgenerics, ?_⟩
  refine (r.unifier false required candidate).relaxes_substitute.fits (fun p hp q hq => ?_) hfits
  rcases unrepeated with hrequired | hcandidate
  · exact Or.inr (Unifier.unambiguous_of_nodup rfl (hrequired p hp))
  · exact Or.inl (hcandidate q hq)

end Contracts
