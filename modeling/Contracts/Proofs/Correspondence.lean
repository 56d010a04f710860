import Contracts.Proofs.Pairing

set_option autoImplicit false

/-! # Constraints that correspond

When a required constraint and a candidate's are counterparts, given which generic parameters are
paired (`Unifier.Corresponds`). This is said without the order in which constraints are compared.

A comparison of two lists has two parts (`Unifier.run_constraints_eq_true_iff`). What is no bound by
a parameter only has to find a counterpart, and leaves the pairs alone. The bounds by parameters are
tried in the order in which they are listed, and pair what they compare. As long as the candidate's
list repeats none of these, a parameter that is tried in vain changes nothing before one succeeds
(`Unifier.exists_first_of_anyM`); `Unifier.TriesOnce` says when that is so. -/

namespace Contracts

/-! ## Bounds by parameters -/

/-- The generic parameter that a constraint bounds by, if it does. -/
def Constraint.param? : Constraint → Option Nat
  | .bound (.param i) => some i
  | _ => none

/-- The generic parameters that a list of constraints bounds by. -/
def paramBounds (constraints : List Constraint) : List Nat :=
  constraints.filterMap Constraint.param?

theorem Constraint.eq_of_param? {c : Constraint} {i : Nat} (h : c.param? = some i) :
    c = .bound (.param i) := by
  unfold param? at h
  split at h
  · exact Option.some.inj h ▸ rfl
  · exact absurd h (by simp)

theorem nodup_paramBounds {constraints : List Constraint} (h : constraints.Nodup) :
    (paramBounds constraints).Nodup := by
  refine h.filterMap fun c c' i hc hc' => ?_
  rw [Constraint.eq_of_param? hc, Constraint.eq_of_param? hc']

theorem mem_paramBounds_iff {constraints : List Constraint} {i : Nat} :
    i ∈ paramBounds constraints ↔ .bound (.param i) ∈ constraints := by
  refine List.mem_filterMap.trans ⟨?_, fun h => ⟨_, h, rfl⟩⟩
  rintro ⟨c, hc, hi⟩
  exact Constraint.eq_of_param? hi ▸ hc

/-! ## Counterparts -/

namespace Unifier

open Pairing

/-- A candidate's concrete type meets a required one: it is the same, or values of the required one
can be stored in it and substitution is allowed. -/
def Meets (u : Unifier) (required candidate : TypeRef) : Prop :=
  required = candidate ∨ u.substitute = true ∧ u.registry.isAssignable required candidate = true

/-- Two types fit when parameters are paired like this: generic parameters if they are paired, and
concrete types if they meet. -/
inductive FitsAt (u : Unifier) (pairs : Pairing) : TypeRef → TypeRef → Prop
  | param {i j : Nat} (paired : (i, j) ∈ pairs) : FitsAt u pairs (.param i) (.param j)
  | concrete {required candidate : TypeRef} (hrequired : required.isParam = false)
      (hcandidate : candidate.isParam = false) (meets : u.Meets required candidate) :
      FitsAt u pairs required candidate

/-- Two constraints are counterparts when parameters are paired like this: they are of one kind, and
bounds fit. -/
inductive Corresponds (u : Unifier) (pairs : Pairing) : Constraint → Constraint → Prop
  | reference : Corresponds u pairs .reference .reference
  | value : Corresponds u pairs .value .value
  | bound {required candidate : TypeRef} (fits : u.FitsAt pairs required candidate) :
      Corresponds u pairs (.bound required) (.bound candidate)

variable {u : Unifier} {pairs pairs' : Pairing}

theorem FitsAt.mono {a b : TypeRef} (h : u.FitsAt pairs a b) (kept : pairs ⊆ pairs') :
    u.FitsAt pairs' a b := by
  cases h with
  | param paired => exact .param (kept paired)
  | concrete ha hb meets => exact .concrete ha hb meets

theorem Corresponds.mono {a b : Constraint} (h : u.Corresponds pairs a b) (kept : pairs ⊆ pairs') :
    u.Corresponds pairs' a b := by
  cases h with
  | reference => exact .reference
  | value => exact .value
  | bound fits => exact .bound (fits.mono kept)

/-- Only a bound by a parameter corresponds to one, and then the two are paired. -/
theorem Corresponds.exists_paired {i : Nat} {b : Constraint}
    (h : u.Corresponds pairs (.bound (.param i)) b) :
    ∃ j, b = .bound (.param j) ∧ (i, j) ∈ pairs := by
  cases h with
  | bound fits =>
      cases fits with
      | param paired => exact ⟨_, rfl, paired⟩
      | concrete hrequired => exact absurd hrequired (by simp [TypeRef.isParam])

/-- Without substitution, different constraints have different counterparts. -/
theorem Corresponds.unique (exact : u.substitute = false) (hpairs : pairs.OneToOne)
    {a a' b : Constraint} (h : u.Corresponds pairs a b) (h' : u.Corresponds pairs a' b) :
    a = a' := by
  have hsame : ∀ {s t : TypeRef}, u.Meets s t → s = t := fun hmeets =>
    hmeets.resolve_right fun hsub => Bool.false_ne_true (exact ▸ hsub.1)
  cases h with
  | reference => cases h'; rfl
  | value => cases h'; rfl
  | bound fits =>
      cases h' with
      | bound fits' =>
          cases fits with
          | param paired =>
              cases fits' with
              | param paired' =>
                  obtain rfl := (hpairs _ paired _ paired').2 rfl
                  rfl
              | concrete _ hcandidate => exact absurd hcandidate (by simp [TypeRef.isParam])
          | concrete _ hcandidate meets =>
              cases fits' with
              | param => exact absurd hcandidate (by simp [TypeRef.isParam])
              | concrete _ _ meets' => rw [hsame meets, hsame meets']

/-! ## Comparing types -/

theorem concrete_contravariant_iff {required candidate : TypeRef} :
    u.concrete .contravariant required candidate = true ↔ u.Meets required candidate := by
  unfold concrete Meets
  cases u.substitute with
  | true =>
      have hself : required = candidate → u.registry.isAssignable required candidate = true :=
        fun heq => heq ▸ Registry.isAssignable_self _ _
      simpa [Registry.checkVariance] using hself
  | false => simpa [Registry.checkVariance] using eq_comm

theorem concrete_covariant_iff {required candidate : TypeRef} :
    u.concrete .covariant required candidate = true ↔
      u.registry.isAssignable candidate required = true := by
  simp [concrete, Registry.checkVariance]

/-- An outcome that does not depend on the pairs leaves them as they are. -/
theorem run_pure_eq_true_iff {fits : Bool} :
    (pure fits : StateM Pairing Bool).run pairs = (true, pairs') ↔ fits = true ∧ pairs = pairs' :=
  ⟨Prod.mk.inj, fun h => Prod.ext h.1 h.2⟩

variable {params : Nat → Nat → StateM Pairing Bool}

/-- Two types are unified as parameters, or they are concrete and leave the pairs alone. -/
theorem run_types_eq_true_iff {variance : Variance} {a b : TypeRef} :
    (u.types params variance a b).run pairs = (true, pairs') ↔
      (∃ i j, a = .param i ∧ b = .param j ∧ (params i j).run pairs = (true, pairs')) ∨
        a.isParam = false ∧ b.isParam = false ∧ u.concrete variance a b = true ∧
          pairs = pairs' := by
  cases a with
  | param i =>
      cases b with
      | param j => simp [types, TypeRef.isParam]
      | builtin b => exact run_pure_eq_true_iff.trans (by simp [TypeRef.isParam])
      | named b => exact run_pure_eq_true_iff.trans (by simp [TypeRef.isParam])
  | builtin a => cases b <;> exact run_pure_eq_true_iff.trans (by simp [TypeRef.isParam])
  | named a => cases b <;> exact run_pure_eq_true_iff.trans (by simp [TypeRef.isParam])

/-- Signatures unify if their parameters do, one by one, and then their results, unless there is
none on either side. -/
theorem run_signature_eq_true_iff {required candidate : Signature} :
    (u.signature required candidate).run pairs = (true, pairs') ↔
      ∃ middle, ((required.params.zip candidate.params).allM fun p =>
          u.types u.paramPair .contravariant p.1 p.2).run pairs = (true, middle) ∧
        (required.ret = .void ∧ candidate.ret = .void ∧ middle = pairs' ∨
          required.ret ≠ .void ∧ candidate.ret ≠ .void ∧
            (u.types u.paramPair .covariant required.ret candidate.ret).run middle =
              (true, pairs')) := by
  unfold signature
  cases hparams : ((required.params.zip candidate.params).allM fun p =>
    u.types u.paramPair .contravariant p.1 p.2).run pairs with
  | mk fits middle =>
      rw [StateM.run_bind_of_run hparams]
      cases fits with
      | false =>
          refine ⟨elim_of_failed, ?_⟩
          rintro ⟨_, hfailed, -⟩
          exact elim_of_failed hfailed
      | true =>
          have hmiddle : ∀ m : Pairing, ((true, middle) : Id (Bool × Pairing)) = (true, m) ↔
              middle = m := fun m => ⟨fun h => (Prod.mk.inj h).2, fun h => h ▸ rfl⟩
          simp only [hmiddle, exists_eq_left', Bool.not_true, Bool.false_eq_true, if_false,
            TypeRef.isVoid, decide_eq_true_eq]
          split
          · rename_i hvoid
            rw [run_pure_eq_true_iff, decide_eq_true_eq]
            grind
          · rename_i hvoid
            obtain ⟨hrequired, hcandidate⟩ := not_or.1 hvoid
            simp [hrequired, hcandidate]

/-! ## Comparing lists of constraints -/

/-- Whether two constraints are counterparts, if they are no bounds by parameters. -/
def agrees (u : Unifier) : Constraint → Constraint → Bool
  | .reference, .reference | .value, .value => true
  | .bound required, .bound candidate =>
      !required.isParam && !candidate.isParam && u.concrete .contravariant required candidate
  | _, _ => false

theorem agrees_iff {a b : Constraint} (h : a.param? = none) :
    u.agrees a b = true ↔ u.Corresponds pairs a b := by
  constructor
  · intro hagrees
    unfold agrees at hagrees
    split at hagrees
    · exact .reference
    · exact .value
    · simp only [Bool.and_eq_true, Bool.not_eq_true'] at hagrees
      obtain ⟨⟨ha, hb⟩, hmeets⟩ := hagrees
      exact .bound (.concrete ha hb (concrete_contravariant_iff.1 hmeets))
    · exact absurd hagrees (by simp)
  · intro hcorresponds
    cases hcorresponds with
    | reference => rfl
    | value => rfl
    | bound fits =>
        cases fits with
        | param paired => exact absurd h (by simp [Constraint.param?])
        | concrete ha hb meets => simp [agrees, ha, hb, concrete_contravariant_iff.2 meets]

theorem constraint_of_param?_eq_none {a : Constraint} (h : a.param? = none) :
    u.constraint params a = fun b => pure (u.agrees a b) := by
  funext b
  cases a with
  | reference => cases b <;> rfl
  | value => cases b <;> rfl
  | bound a =>
      cases b with
      | reference => rfl
      | value => rfl
      | bound b =>
          cases a with
          | param i => exact absurd h (by simp [Constraint.param?])
          | builtin a => cases b <;> simp [constraint, types, agrees, TypeRef.isParam]
          | named a => cases b <;> simp [constraint, types, agrees, TypeRef.isParam]

/-- A bound by a parameter is compared with the parameters of the other list only. -/
theorem anyM_constraint_param (i : Nat) (cs : List Constraint) :
    (cs.anyM fun c => u.constraint params (.bound (.param i)) c) =
      (paramBounds cs).anyM (params i) := by
  induction cs with
  | nil => rfl
  | cons c cs ih =>
      rw [List.anyM_cons, ih]
      cases c with
      | reference => rfl
      | value => rfl
      | bound ty =>
          cases ty with
          | param j =>
              have hcons : paramBounds (.bound (.param j) :: cs) = j :: paramBounds cs := rfl
              rw [hcons, List.anyM_cons]
              rfl
          | builtin b => rfl
          | named idx => rfl

/-- The bounds by parameters of the one list, each tried with those of the other in order. -/
def paramsAll (params : Nat → Nat → StateM Pairing Bool) (required candidate : List Nat) :
    StateM Pairing Bool :=
  required.allM fun i => candidate.anyM (params i)

theorem run_paramsAll_cons_eq_true_iff {i : Nat} {is js : List Nat} :
    (paramsAll params (i :: is) js).run pairs = (true, pairs') ↔
      ∃ middle, (js.anyM (params i)).run pairs = (true, middle) ∧
        (paramsAll params is js).run middle = (true, pairs') :=
  StateM.run_allM_cons_eq_true_iff ..

theorem run_allM_constraint_eq_true_iff {required candidate : List Constraint} :
    (required.allM fun a => candidate.anyM fun b => u.constraint params a b).run pairs =
        (true, pairs') ↔
      (∀ a ∈ required, a.param? = none → ∃ b ∈ candidate, u.agrees a b = true) ∧
        (paramsAll params (paramBounds required) (paramBounds candidate)).run pairs =
          (true, pairs') := by
  induction required generalizing pairs with
  | nil => simp [paramBounds, paramsAll]
  | cons a required ih =>
      rw [StateM.run_allM_cons_eq_true_iff]
      cases ha : a.param? with
      | none =>
          have hbounds : paramBounds (a :: required) = paramBounds required :=
            List.filterMap_cons_none ha
          have hany : (candidate.anyM fun b => u.constraint params a b) =
              pure (candidate.any (u.agrees a)) := by
            rw [constraint_of_param?_eq_none ha, List.anyM_pure]
          rw [hbounds, hany]
          simp only [run_pure_eq_true_iff, ih, List.any_eq_true, List.forall_mem_cons, ha,
            forall_const, and_assoc, exists_and_left, exists_eq_left']
      | some i =>
          obtain rfl := Constraint.eq_of_param? ha
          have hbounds : paramBounds (.bound (.param i) :: required) = i :: paramBounds required :=
            rfl
          rw [hbounds, anyM_constraint_param, run_paramsAll_cons_eq_true_iff]
          simp only [ih, List.forall_mem_cons, ha, reduceCtorEq, false_implies, true_and]
          constructor
          · rintro ⟨middle, hany, hagree, hall⟩
            exact ⟨hagree, middle, hany, hall⟩
          · rintro ⟨hagree, middle, hany, hall⟩
            exact ⟨middle, hany, hagree, hall⟩

/-- **The two parts of a comparison.** Lists of constraints correspond if they are equally long,
what is no bound by a parameter has a counterpart, and the bounds by parameters fit when each is
tried with those of the other list in order. -/
theorem run_constraints_eq_true_iff {required candidate : List Constraint} :
    (u.constraints params required candidate).run pairs = (true, pairs') ↔
      required.length = candidate.length ∧
        (∀ a ∈ required, a.param? = none → ∃ b ∈ candidate, u.agrees a b = true) ∧
        (paramsAll params (paramBounds required) (paramBounds candidate)).run pairs =
          (true, pairs') := by
  unfold constraints
  split
  · rename_i hlength
    rw [run_allM_constraint_eq_true_iff, and_iff_right hlength]
  · rename_i hlength
    rw [run_pure_eq_true_iff]
    simp [hlength]

/-! ## What a successful comparison leaves -/

variable {depth : Nat}

/-- Of the parameters that all fit, each is paired with one of the others. -/
theorem exists_paired_of_paramsAll {is js : List Nat} (hpairs : pairs.OneToOne)
    (h : (paramsAll (u.params depth) is js).run pairs = (true, pairs')) :
    ∀ i ∈ is, ∃ j ∈ js, (i, j) ∈ pairs' := by
  have hadds : ∀ i, Adds (js.anyM (u.params depth i)) :=
    fun i => adds_anyM fun j _ => u.adds_params depth i j
  refine forall_of_allM (fun i pairs => ∃ j ∈ js, (i, j) ∈ pairs) h hpairs (fun i _ => hadds i)
    ?_ ?_
  · rintro i a b hkept ⟨j, hj, hij⟩
    exact ⟨j, hj, hkept hij⟩
  · intro i _ a b ha hrun
    obtain ⟨j, hj, start, hstart, hfits⟩ :=
      exists_of_anyM hrun ha fun j _ => u.adds_params depth i j
    exact ⟨j, hj, mem_of_params hstart hfits⟩

/-- In lists that correspond, each required constraint has a counterpart. -/
theorem exists_corresponds {required candidate : List Constraint} (hpairs : pairs.OneToOne)
    (h : (u.constraints (u.params depth) required candidate).run pairs = (true, pairs')) :
    ∀ a ∈ required, ∃ b ∈ candidate, u.Corresponds pairs' a b := by
  obtain ⟨-, hagree, hall⟩ := run_constraints_eq_true_iff.1 h
  intro a ha
  cases hparam : a.param? with
  | none =>
      obtain ⟨b, hb, hab⟩ := hagree a ha hparam
      exact ⟨b, hb, (agrees_iff hparam).1 hab⟩
  | some i =>
      obtain rfl := Constraint.eq_of_param? hparam
      obtain ⟨j, hj, hij⟩ := exists_paired_of_paramsAll hpairs hall i (mem_paramBounds_iff.2 ha)
      exact ⟨_, mem_paramBounds_iff.1 hj, .bound (.param hij)⟩

/-! ## Nothing is tried twice -/

/-- However parameters are paired, no constraint of the candidate's list is the counterpart of two
required ones. -/
def Unambiguous (u : Unifier) (required candidate : List Constraint) : Prop :=
  required.Pairwise fun a a' => ∀ b ∈ candidate, ∀ pairs : Pairing, pairs.OneToOne →
    u.Corresponds pairs a b → ¬u.Corresponds pairs a' b

/-- When lists are compared that correspond, no parameter is tried a second time: the candidate's
list bounds by none twice, or it cannot do so because its constraints are all needed. -/
def TriesOnce (u : Unifier) (required candidate : List Constraint) : Prop :=
  (paramBounds candidate).Nodup ∨ u.Unambiguous required candidate

/-- Without substitution it is enough that no required constraint is repeated. -/
theorem unambiguous_of_nodup (exact : u.substitute = false) {required candidate : List Constraint}
    (distinct : required.Nodup) : u.Unambiguous required candidate :=
  distinct.imp fun hne _ _ _ hpairs h h' => hne (h.unique exact hpairs h')

end Unifier

/-- If different places of the one list have different partners in the other list, which is as long,
then the other list repeats nothing, and all of it are partners. -/
theorem covered_of_unshared {α β : Type} [DecidableEq β] {rel : α → β → Prop} {as : List α}
    {bs : List β} (unshared : as.Pairwise fun a a' => ∀ b ∈ bs, rel a b → ¬rel a' b)
    (length : as.length = bs.length) (partner : ∀ a ∈ as, ∃ b ∈ bs, rel a b) :
    bs.Nodup ∧ ∀ b ∈ bs, ∃ a ∈ as, rel a b := by
  induction as generalizing bs with
  | nil =>
      obtain rfl := List.eq_nil_of_length_eq_zero length.symm
      simp
  | cons a as ih =>
      obtain ⟨b, hb, hab⟩ := partner a List.mem_cons_self
      obtain ⟨hfirst, hrest⟩ := List.pairwise_cons.1 unshared
      -- The other places have their partners in what is left without `b`.
      have hpartner : ∀ a' ∈ as, ∃ b' ∈ bs.erase b, rel a' b' := by
        intro a' ha'
        obtain ⟨b', hb', hrel⟩ := partner a' (List.mem_cons_of_mem _ ha')
        have hne : b' ≠ b := by
          rintro rfl
          exact hfirst a' ha' b' hb hab hrel
        exact ⟨b', (List.mem_erase_of_ne hne).2 hb', hrel⟩
      have hlength : as.length = (bs.erase b).length := by
        rw [List.length_erase_of_mem hb, ← length, List.length_cons, Nat.add_sub_cancel]
      obtain ⟨hnodup, hcovered⟩ := ih
        (hrest.imp fun h b' hb' => h b' (List.mem_of_mem_erase hb')) hlength hpartner
      have hperm := List.perm_cons_erase hb
      constructor
      · refine hperm.nodup_iff.2 (List.nodup_cons.2 ⟨fun hmem => ?_, hnodup⟩)
        obtain ⟨a', ha', hrel⟩ := hcovered b hmem
        exact hfirst a' ha' b hb hab hrel
      · intro b' hb'
        rcases List.mem_cons.1 (hperm.subset hb') with rfl | hb'
        · exact ⟨a, List.mem_cons_self, hab⟩
        · obtain ⟨a', ha', hrel⟩ := hcovered b' hb'
          exact ⟨a', List.mem_cons_of_mem _ ha', hrel⟩

namespace Unifier

variable {u : Unifier} {pairs pairs' : Pairing} {depth : Nat} {required candidate : List Constraint}

/-- If no counterpart serves twice, there is one for each of the candidate's constraints too. -/
theorem Unambiguous.covered (h : u.Unambiguous required candidate) (hpairs : pairs.OneToOne)
    (length : required.length = candidate.length)
    (counterparts : ∀ a ∈ required, ∃ b ∈ candidate, u.Corresponds pairs a b) :
    candidate.Nodup ∧ ∀ b ∈ candidate, ∃ a ∈ required, u.Corresponds pairs a b :=
  covered_of_unshared (h.imp fun hunshared b hb => hunshared b hb pairs hpairs) length counterparts

/-- A candidate's list that corresponds without a second try bounds by no parameter twice. -/
theorem TriesOnce.nodup (once : u.TriesOnce required candidate) (hpairs : pairs.OneToOne)
    (h : (u.constraints (u.params depth) required candidate).run pairs = (true, pairs')) :
    (paramBounds candidate).Nodup := by
  rcases once with hdistinct | hunambiguous
  · exact hdistinct
  · have hadds := adds_constraints (u := u) (u.adds_params depth) required candidate pairs hpairs
    rw [h] at hadds
    have hlength := (run_constraints_eq_true_iff.1 h).1
    exact nodup_paramBounds
      (hunambiguous.covered hadds.oneToOne hlength (exists_corresponds hpairs h)).1

end Unifier

end Contracts
