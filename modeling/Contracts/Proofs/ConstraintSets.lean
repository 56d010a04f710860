import Contracts.Proofs.Solution
import Contracts.Proofs.Substitution

set_option autoImplicit false

/-! # Constraints as sets

How far a unifier treats the constraints of a generic parameter as a set.

If a candidate is accepted and tries nothing twice, each constraint of a required parameter has a
counterpart among those of the parameter that it is paired with. The converse needs that no
constraint of the candidate is the counterpart of two required ones, since only the lengths of the
lists are compared otherwise (`Registry.equivalent_of_unifies`).

The order of constraints is of no importance as long as nothing depends on the parameter that a
bound is paired with first: no parameter of the candidate is bounded by two others, or the bounds by
parameters stay in their order (`Registry.unifies_reordered`). -/

namespace Contracts

/-! ## Equivalent constraints -/

namespace Unifier

/-- No constraint of the one parameter of the candidate is the counterpart of two constraints of the
required one. -/
def UnambiguousAt (u : Unifier) (i j : Nat) : Prop :=
  ∀ p q, u.required[i]? = some p → u.candidate[j]? = some q →
    u.Unambiguous p.constraints q.constraints

/-- Both parameters are there, and each constraint of either one has a counterpart in the other. -/
def EquivalentAt (u : Unifier) (pairs : Pairing) (i j : Nat) : Prop :=
  ∃ p q, u.required[i]? = some p ∧ u.candidate[j]? = some q ∧
    (∀ a ∈ p.constraints, ∃ b ∈ q.constraints, u.Corresponds pairs a b) ∧
    ∀ b ∈ q.constraints, ∃ a ∈ p.constraints, u.Corresponds pairs a b

variable {u : Unifier} {pairs : Pairing} {i j : Nat}

theorem Covers.equivalentAt (h : u.Covers pairs i j) (oneToOne : pairs.OneToOne)
    (unambiguous : u.UnambiguousAt i j) : u.EquivalentAt pairs i j := by
  obtain ⟨p, q, hp, hq, hlength, hcounterparts⟩ := h
  have hcovered := ((unambiguous p q hp hq).covered oneToOne hlength hcounterparts).2
  exact ⟨p, q, hp, hq, hcounterparts, hcovered⟩

/-- Without substitution it is enough that no required constraint is repeated. -/
theorem unambiguousAt_of_nodup (exact : u.substitute = false)
    (distinct : ∀ p ∈ u.required, p.constraints.Nodup) : u.UnambiguousAt i j :=
  fun p _ hp _ => unambiguous_of_nodup exact (distinct p (List.mem_of_getElem? hp))

end Unifier

/-- The types of two signatures at the same positions, those of the results first. -/
def Signature.positions (required candidate : Signature) : List (TypeRef × TypeRef) :=
  (required.ret, candidate.ret) :: required.params.zip candidate.params

/-- Generic parameters at the same position are paired in a solution. -/
theorem Unifier.Solution.mem_of_positions {u : Unifier} {pairs : Pairing}
    {required candidate : Signature} (solution : u.Solution pairs required candidate) {i j : Nat}
    (hmem : (.param i, .param j) ∈ required.positions candidate) : (i, j) ∈ pairs := by
  rcases List.mem_cons.1 hmem with heq | hmem
  · obtain ⟨hi, hj⟩ := Prod.mk.inj heq
    have hret := solution.ret
    rw [← hi, ← hj] at hret
    cases hret with
    | param paired => exact paired
    | concrete hrequired => exact absurd hrequired (by simp [TypeRef.isParam])
  · cases (List.forall₂_iff_zip.1 solution.params).2 hmem with
    | param paired => exact paired
    | concrete hrequired => exact absurd hrequired (by simp [TypeRef.isParam])

/-- Generic parameters can be paired, those at the same position with each other, so that paired
ones have equivalent constraints. -/
def Unifier.Equivalent (u : Unifier) (required candidate : Signature) : Prop :=
  ∃ pairs : Pairing,
    (∀ i j, (.param i, .param j) ∈ required.positions candidate → (i, j) ∈ pairs) ∧
      ∀ i j, (i, j) ∈ pairs → u.EquivalentAt pairs i j

namespace Registry

variable {r : Registry} {substitute : Bool} {required candidate : Signature}

/-- **Accepted signatures have equivalent constraints.** Let a candidate be accepted without trying
anything twice. Then generic parameters can be paired one to one so that those at the same position
are paired, and each constraint of a required parameter has a counterpart in the parameter it is
paired with. If no constraint there is the counterpart of two, each of them has one too. -/
theorem equivalent_of_unifies (h : r.unifies substitute required candidate = true)
    (once : ∀ p ∈ required.generics, ∀ q ∈ candidate.generics,
      (r.unifier substitute required candidate).TriesOnce p.constraints q.constraints) :
    let u := r.unifier substitute required candidate
    ∃ pairs : Pairing, pairs.OneToOne ∧
      (∀ i j, (.param i, .param j) ∈ required.positions candidate → (i, j) ∈ pairs) ∧
      ∀ i j, (i, j) ∈ pairs →
        u.Covers pairs i j ∧ (u.UnambiguousAt i j → u.EquivalentAt pairs i j) := by
  intro u
  obtain ⟨hparams, -, hfits⟩ := unifies_eq_true_iff.1 h
  obtain ⟨pairs, solution⟩ := u.exists_solution once hparams hfits
  refine ⟨pairs, solution.oneToOne, fun i j => solution.mem_of_positions, fun i j hij => ?_⟩
  have hcovers := solution.covers i j hij
  exact ⟨hcovers, hcovers.equivalentAt solution.oneToOne⟩

/-- A method without a result, the parameters of which have generic types. -/
def taking (params : List Nat) (generics : List GenericParam) : Signature where
  params := params.map .param
  ret := .void
  generics

/-- A parameter that is bounded by another one. -/
def stacked : List GenericParam :=
  [⟨"T", [.bound (.param 1), .reference]⟩, ⟨"U", [.reference, .bound .str]⟩]

/-- The same parameters the other way round, with their constraints in another order. -/
def stackedBack : List GenericParam :=
  [⟨"B", [.bound .str, .reference]⟩, ⟨"A", [.reference, .bound (.param 0)]⟩]

theorem equivalent_of_unifies_stacked :
    let u := unifier {} false (taking [0] stacked) (taking [1] stackedBack)
    unifies {} false (taking [0] stacked) (taking [1] stackedBack) = true ∧
      (∀ p ∈ stacked, ∀ q ∈ stackedBack, u.TriesOnce p.constraints q.constraints) ∧
      u.Equivalent (taking [0] stacked) (taking [1] stackedBack) := by
  intro u
  have hunifies : unifies {} false (taking [0] stacked) (taking [1] stackedBack) = true := by
    decide +kernel
  have hdistinct : ∀ p ∈ stacked, p.constraints.Nodup := by decide
  have honce : ∀ p ∈ stacked, ∀ q ∈ stackedBack, u.TriesOnce p.constraints q.constraints :=
    fun p hp q _ => Or.inr (Unifier.unambiguous_of_nodup rfl (hdistinct p hp))
  obtain ⟨pairs, -, hpositions, hpairs⟩ := equivalent_of_unifies hunifies honce
  refine ⟨hunifies, honce, pairs, hpositions, fun i j hij => ?_⟩
  exact (hpairs i j hij).2 (Unifier.unambiguousAt_of_nodup rfl hdistinct)

/-- A parameter with the given constraints. -/
def single (constraints : List Constraint) : List GenericParam := [⟨"T", constraints⟩]

/-- A parameter that is bounded by another one twice. -/
def twice (bound : TypeRef) : List GenericParam :=
  [⟨"T", [.bound (.param 1), .bound (.param 1)]⟩, ⟨"U", [.bound bound]⟩]

/-- Two methods are accepted whose parameters cannot be paired equivalently. The one repeats a
constraint where the other has a second one. The other repeats a bound by a parameter that is not
equivalent; tried again, the two are taken to fit as they have been paired before. -/
theorem unifies_of_not_equivalent :
    let ref := taking [0] (single [.reference, .reference])
    let str := taking [0] (single [.reference, .bound .str])
    let int := taking [0] (twice (.builtin (.int .i32)))
    let top := taking [0] (twice .object)
    (unifies {} false ref str = true ∧ ¬(unifier {} false ref str).Equivalent ref str) ∧
      unifies {} false int top = true ∧ ¬(unifier {} false int top).Equivalent int top := by
  intro ref str int top
  refine ⟨⟨by decide +kernel, ?_⟩, by decide +kernel, ?_⟩
  · rintro ⟨pairs, hpositions, hpairs⟩
    obtain ⟨p, q, hp, hq, -, hcovered⟩ := hpairs 0 0 (hpositions 0 0 (by decide))
    obtain rfl := Option.some.inj hp
    obtain rfl := Option.some.inj hq
    obtain ⟨a, ha, hcorresponds⟩ := hcovered (.bound .str) (by decide)
    obtain rfl : a = .reference := by simpa using ha
    cases hcorresponds
  · rintro ⟨pairs, hpositions, hpairs⟩
    obtain ⟨p, q, hp, hq, hcounterparts, -⟩ := hpairs 0 0 (hpositions 0 0 (by decide))
    obtain rfl := Option.some.inj hp
    obtain rfl := Option.some.inj hq
    -- The bounds of the two parameters are the only ones, so these are paired.
    obtain ⟨b, hb, hcorresponds⟩ := hcounterparts (.bound (.param 1)) (by decide)
    obtain ⟨j, rfl, hnext⟩ := hcorresponds.exists_paired
    obtain rfl : j = 1 := by simpa using hb
    obtain ⟨p, q, hp, hq, hcounterparts, -⟩ := hpairs 1 1 hnext
    obtain rfl := Option.some.inj hp
    obtain rfl := Option.some.inj hq
    obtain ⟨b, hb, hcorresponds⟩ := hcounterparts (.bound (.builtin (.int .i32))) (by decide)
    obtain rfl : b = .bound .object := by simpa using hb
    cases hcorresponds with
    | bound fits =>
        cases fits with
        | concrete _ _ meets => simp [Unifier.Meets, unifier] at meets

end Registry

/-! ## The order of constraints -/

/-- The same generic parameters with the constraints of each one in some other order. -/
def Reordered (generics generics' : List GenericParam) : Prop :=
  List.Forall₂ (fun p p' => p.constraints.Perm p'.constraints) generics generics'

/-- The bounds by parameters of each generic parameter, in order. -/
def boundsOf (generics : List GenericParam) : List (List Nat) :=
  generics.map fun p => paramBounds p.constraints

variable {generics generics' : List GenericParam}

theorem Reordered.symm (h : Reordered generics generics') : Reordered generics' generics :=
  h.flip.imp fun _ _ => List.Perm.symm

theorem Reordered.exists_mem (h : Reordered generics generics') {p' : GenericParam}
    (hp' : p' ∈ generics') : ∃ p ∈ generics, p.constraints.Perm p'.constraints := by
  obtain ⟨i, hi⟩ := List.mem_iff_getElem?.1 hp'
  obtain ⟨p, hp, hperm⟩ := exists_getElem?_of_forall₂ h.symm hi
  exact ⟨p, List.mem_of_getElem? hp, hperm.symm⟩

/-- If bounds by parameters have stayed in their order, no other constraint matters. -/
theorem Reordered.rearranged (h : Reordered generics generics')
    (kept : boundsOf generics = boundsOf generics') :
    List.Forall₂ (fun p p' => Rearranged p.constraints p'.constraints) generics generics' := by
  induction h with
  | nil => exact .nil
  | cons hperm _ ih =>
      obtain ⟨hfirst, hothers⟩ := List.cons.inj kept
      exact .cons ⟨hperm, hfirst⟩ (ih hothers)

namespace Unifier

variable {u u' : Unifier} {pairs : Pairing} {required candidate : List Constraint}

theorem Forced.reordered (forced : Forced generics) (h : Reordered generics generics') :
    Forced generics' := by
  intro p' hp'
  obtain ⟨p, hp, hperm⟩ := h.exists_mem hp'
  exact (hperm.filterMap Constraint.param?).length_eq ▸ forced p hp

section Relaxes

variable {same : List Constraint → List Constraint → Prop} (relaxes : Relaxes same u u')

include relaxes

theorem Relaxes.fitsAt {a b : TypeRef} (h : u.FitsAt pairs a b) : u'.FitsAt pairs a b := by
  cases h with
  | param paired => exact .param paired
  | concrete ha hb meets =>
      have hfits := relaxes.concrete (concrete_contravariant_iff.2 meets)
      exact .concrete ha hb (concrete_contravariant_iff.1 hfits)

theorem Relaxes.corresponds {a b : Constraint} (h : u.Corresponds pairs a b) :
    u'.Corresponds pairs a b := by
  cases h with
  | reference => exact .reference
  | value => exact .value
  | bound fits => exact .bound (relaxes.fitsAt fits)

theorem Relaxes.fitsResult {a b : TypeRef} (h : u.FitsResult pairs a b) :
    u'.FitsResult pairs a b := by
  cases h with
  | void => exact .void
  | param paired => exact .param paired
  | concrete ha hb some_required some_candidate assignable =>
      have hfits := relaxes.concrete (concrete_covariant_iff.2 assignable)
      exact .concrete ha hb some_required some_candidate (concrete_covariant_iff.1 hfits)

end Relaxes

/-- Lists that are tried once by one unifier are so by a stricter one, in any order. -/
theorem TriesOnce.reordered (once : u.TriesOnce required candidate)
    (relaxes : Relaxes List.Perm u' u) {required' candidate' : List Constraint}
    (hrequired : required.Perm required') (hcandidate : candidate.Perm candidate') :
    u'.TriesOnce required' candidate' := by
  refine once.imp (hcandidate.filterMap _).nodup_iff.1 fun hunambiguous => ?_
  -- Two constraints share no counterpart whichever of them comes first.
  have hperm := hrequired.pairwise hunambiguous fun hne b hb pairs hpairs h h' =>
    hne b hb pairs hpairs h' h
  exact hperm.imp fun hne b hb pairs hpairs h h' =>
    hne b (hcandidate.mem_iff.2 hb) pairs hpairs (relaxes.corresponds h) (relaxes.corresponds h')

theorem Relaxes.covers (relaxes : Relaxes List.Perm u u') {i j : Nat} (h : u.Covers pairs i j) :
    u'.Covers pairs i j := by
  obtain ⟨p, q, hp, hq, hlength, hcounterparts⟩ := h
  obtain ⟨p', hp', hrequired⟩ := exists_getElem?_of_forall₂ relaxes.required hp
  obtain ⟨q', hq', hcandidate⟩ := exists_getElem?_of_forall₂ relaxes.candidate hq
  refine ⟨p', q', hp', hq', ?_, fun a ha => ?_⟩
  · rw [← hrequired.length_eq, ← hcandidate.length_eq, hlength]
  · obtain ⟨b, hb, hab⟩ := hcounterparts a (hrequired.mem_iff.2 ha)
    exact ⟨b, hcandidate.mem_iff.1 hb, relaxes.corresponds hab⟩

/-- A solution does not depend on the order of constraints. -/
theorem Relaxes.solution (relaxes : Relaxes List.Perm u u') {required candidate : Signature}
    (solution : u.Solution pairs required candidate) : u'.Solution pairs required candidate where
  oneToOne := solution.oneToOne
  covers i j hij := relaxes.covers (solution.covers i j hij)
  params := solution.params.imp fun _ _ => relaxes.fitsAt
  ret := relaxes.fitsResult solution.ret

/-- What is accepted without trying anything twice is accepted by a unifier that is as lax, in any
order of constraints. Either a solution is enough, as there is no choice on the way, or all choices
are the same. -/
theorem Relaxes.fits_reordered (relaxes : Relaxes List.Perm u u')
    (once : ∀ p ∈ u.required, ∀ q ∈ u.candidate, u.TriesOnce p.constraints q.constraints)
    (unchosen : Forced u.candidate ∨
      boundsOf u.required = boundsOf u'.required ∧ boundsOf u.candidate = boundsOf u'.candidate)
    {required candidate : Signature} (length : required.params.length = candidate.params.length)
    (fits : ((u.signature required candidate).run []).1 = true) :
    ((u'.signature required candidate).run []).1 = true := by
  rcases unchosen with forced | ⟨hrequired, hcandidate⟩
  · obtain ⟨pairs, solution⟩ := u.exists_solution once length fits
    exact fits_of_solution (forced.reordered relaxes.candidate) (relaxes.solution solution)
  · have hrelaxes : Relaxes Rearranged u u' :=
      ⟨Reordered.rearranged relaxes.required hrequired,
        Reordered.rearranged relaxes.candidate hcandidate, relaxes.concrete⟩
    exact hrelaxes.fits once fits

end Unifier

/-- **The order of constraints does not matter.** Let nothing be tried twice, and let either no
parameter of the candidate be bounded by two others, or the bounds by parameters stay in their
order. Then listing the constraints of any generic parameter of either side in another order does
not change whether the signatures unify. -/
theorem Registry.unifies_reordered {r : Registry} {substitute : Bool}
    {required candidate : Signature} (hrequired : Reordered required.generics generics)
    (hcandidate : Reordered candidate.generics generics')
    (once : ∀ p ∈ required.generics, ∀ q ∈ candidate.generics,
      (r.unifier substitute required candidate).TriesOnce p.constraints q.constraints)
    (unchosen : Unifier.Forced candidate.generics ∨
      boundsOf required.generics = boundsOf generics ∧
        boundsOf candidate.generics = boundsOf generics') :
    r.unifies substitute { required with generics } { candidate with generics := generics' } =
      r.unifies substitute required candidate := by
  let u := r.unifier substitute required candidate
  let u' : Unifier := { u with required := generics, candidate := generics' }
  have hrelaxes : Unifier.Relaxes List.Perm u u' := ⟨hrequired, hcandidate, id⟩
  have hback : Unifier.Relaxes List.Perm u' u := ⟨hrequired.symm, hcandidate.symm, id⟩
  have honce : ∀ p ∈ generics, ∀ q ∈ generics', u'.TriesOnce p.constraints q.constraints := by
    intro p' hp' q' hq'
    obtain ⟨p, hp, hperm⟩ := hrequired.exists_mem hp'
    obtain ⟨q, hq, hperm'⟩ := hcandidate.exists_mem hq'
    exact (once p hp q hq).reordered hback hperm hperm'
  have hunchosen := unchosen.imp (fun forced => forced.reordered hcandidate)
    (fun kept => And.intro kept.1.symm kept.2.symm)
  refine Bool.eq_iff_iff.2 (unifies_eq_true_iff.trans (Iff.trans ?_ unifies_eq_true_iff.symm))
  refine and_congr_right fun hparams => and_congr ?_ ⟨fun hfits => ?_, fun hfits => ?_⟩
  · rw [hrequired.length_eq, hcandidate.length_eq]
  · exact hback.fits_reordered honce hunchosen hparams hfits
  · exact hrelaxes.fits_reordered once unchosen hparams hfits

namespace Registry

/-- A parameter with the given constraints, and two more. -/
def fork (constraints : List Constraint) : List GenericParam :=
  [⟨"T", constraints⟩, ⟨"U", []⟩, ⟨"V", []⟩]

theorem reordered_fork {xs ys : List Constraint} (h : xs.Perm ys) : Reordered (fork xs) (fork ys) :=
  .cons h (.cons (.refl _) (.cons (.refl _) .nil))

theorem triesOnce_fork {u : Unifier} {constraints : List Constraint}
    (h : (paramBounds constraints).Nodup) :
    ∀ p ∈ fork constraints, ∀ q ∈ fork constraints, u.TriesOnce p.constraints q.constraints := by
  have hnodup : ∀ q ∈ fork constraints, (paramBounds q.constraints).Nodup := by
    simpa [fork, paramBounds] using h
  exact fun _ _ q hq => Or.inl (hnodup q hq)

theorem unifies_reordered_fork :
    let one := [.bound (.param 1), .value]
    let two := [.bound (.param 1), .value, .bound (.param 2)]
    let first := [.value, .bound (.param 1), .bound (.param 2)]
    (Unifier.Forced (fork one) ∧
        unifies {} true (taking [0, 1] (fork one.reverse)) (taking [0, 1] (fork one)) = true) ∧
      boundsOf (fork two) = boundsOf (fork first) ∧
        unifies {} true (taking [0, 1] (fork two)) (taking [0, 1] (fork first)) = true := by
  intro one two first
  have hforced : Unifier.Forced (fork one) := by
    unfold Unifier.Forced
    decide
  have hreversed : unifies {} true (taking [0, 1] (fork one.reverse)) (taking [0, 1] (fork one)) =
      unifies {} true (taking [0, 1] (fork one)) (taking [0, 1] (fork one)) :=
    @unifies_reordered _ _ {} true (taking [0, 1] (fork one)) (taking [0, 1] (fork one))
      (reordered_fork (List.reverse_perm one).symm) (reordered_fork (.refl one))
      (triesOnce_fork (by decide)) (Or.inl hforced)
  have hmoved : unifies {} true (taking [0, 1] (fork two)) (taking [0, 1] (fork first)) =
      unifies {} true (taking [0, 1] (fork two)) (taking [0, 1] (fork two)) :=
    @unifies_reordered _ _ {} true (taking [0, 1] (fork two)) (taking [0, 1] (fork two))
      (reordered_fork (.refl two)) (reordered_fork (List.Perm.swap ..))
      (triesOnce_fork (by decide)) (Or.inr ⟨rfl, rfl⟩)
  exact ⟨⟨hforced, hreversed.trans (by decide +kernel)⟩, rfl, hmoved.trans (by decide +kernel)⟩

/-- A bound is paired with the first one that is free. If a later position needs another pairing,
that is not tried any more, and so the order of the bounds decides. -/
theorem not_unifies_of_reordered :
    let two := [.bound (.param 1), .bound (.param 2)]
    Reordered (fork two) (fork two.reverse) ∧
      unifies {} false (taking [0, 1] (fork two)) (taking [0, 1] (fork two)) = true ∧
      unifies {} false (taking [0, 1] (fork two)) (taking [0, 1] (fork two.reverse)) = false := by
  intro two
  exact ⟨reordered_fork (List.reverse_perm two).symm, by decide +kernel, by decide +kernel⟩

end Registry

end Contracts
