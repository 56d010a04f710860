import Contracts.Proofs.Reachability
import Contracts.Unification
import Mathlib.Data.Finset.Card

set_option autoImplicit false

/-! # A signature unifies with itself

Unification pairs generic parameters greedily: the constraints of two parameters are compared in
order, a comparison may pair further parameters on the way, and a pair is kept even where the
comparison that made it fails. When the two signatures are the same up to the names of their generic
parameters, none of this does harm (`Registry.unifies_of_same`).

The invariant is that the pairing stays *diagonal*: it only pairs parameters of one position. A
constraint that comes before its counterpart in the list was itself the counterpart of an earlier
one, so its parameter is paired already; it matches the same parameter only, and changes nothing
when it does not match. The constraints may refer to each other in cycles: each step down pairs one
more parameter with itself, so the depth of comparison is never exhausted. -/

namespace Contracts

/-- A computation runs on from the state that its first part leaves. -/
theorem StateM.run_bind_of_run {σ α β : Type} {m : StateM σ α} {f : α → StateM σ β} {s s' : σ}
    {a : α} (h : m.run s = (a, s')) : (m >>= f).run s = (f a).run s' := by
  rw [StateT.run_bind, h]
  rfl

/-! ## Diagonal pairs -/

/-- Parameters are only paired with those of the same position. -/
def Pairing.Diagonal (pairs : Pairing) : Prop := ∀ pair ∈ pairs, pair.1 = pair.2

theorem Pairing.Diagonal.cons {pairs : Pairing} (h : pairs.Diagonal) (i : Nat) :
    Pairing.Diagonal ((i, i) :: pairs) := by
  intro pair hpair
  rcases List.mem_cons.1 hpair with rfl | hpair
  · rfl
  · exact h pair hpair

namespace Unifier

variable {u : Unifier}

/-- The generic parameters that are not paired with themselves. -/
def unpaired (u : Unifier) (pairs : Pairing) : Finset Nat :=
  (Finset.range u.required.length).filter fun i => !pairs.contains (i, i)

theorem mem_unpaired {pairs : Pairing} {i : Nat} :
    i ∈ u.unpaired pairs ↔ i < u.required.length ∧ (i, i) ∉ pairs := by
  simp [unpaired]

theorem unpaired_le (pairs : Pairing) : (u.unpaired pairs).card ≤ u.required.length := by
  refine Nat.le_trans (Finset.card_filter_le _ _) ?_
  rw [Finset.card_range]

theorem unpaired_mono {pairs pairs' : Pairing} (h : pairs ⊆ pairs') :
    (u.unpaired pairs').card ≤ (u.unpaired pairs).card := by
  refine Finset.card_le_card fun i hi => ?_
  obtain ⟨hlt, hnot⟩ := mem_unpaired.1 hi
  exact mem_unpaired.2 ⟨hlt, fun hmem => hnot (h hmem)⟩

theorem unpaired_cons_lt {pairs : Pairing} {i : Nat} (hi : i < u.required.length)
    (new : (i, i) ∉ pairs) :
    (u.unpaired ((i, i) :: pairs)).card < (u.unpaired pairs).card := by
  refine Finset.card_lt_card (Finset.ssubset_iff_of_subset ?_ |>.2 ⟨i, ?_, ?_⟩)
  · intro j hj
    obtain ⟨hlt, hnot⟩ := mem_unpaired.1 hj
    exact mem_unpaired.2 ⟨hlt, fun hmem => hnot (List.mem_cons_of_mem _ hmem)⟩
  · exact mem_unpaired.2 ⟨hi, new⟩
  · exact fun hmem => (mem_unpaired.1 hmem).2 List.mem_cons_self

/-- Diagonal pairs that leave fewer than `bound` parameters unpaired. -/
structure Within (u : Unifier) (bound : Nat) (pairs : Pairing) : Prop where
  diagonal : pairs.Diagonal
  few : (u.unpaired pairs).card < bound

/-- More pairs, and still diagonal ones. -/
structure Grows (pairs pairs' : Pairing) : Prop where
  diagonal : pairs'.Diagonal
  subset : pairs ⊆ pairs'

theorem Within.grow {bound : Nat} {pairs pairs' : Pairing} (h : u.Within bound pairs)
    (grows : Grows pairs pairs') : u.Within bound pairs' :=
  ⟨grows.diagonal, Nat.lt_of_le_of_lt (unpaired_mono grows.subset) h.few⟩

theorem Within.refl_grows {bound : Nat} {pairs : Pairing} (h : u.Within bound pairs) :
    Grows pairs pairs :=
  ⟨h.diagonal, List.Subset.refl pairs⟩

theorem Grows.trans {a b c : Pairing} (hab : Grows a b) (hbc : Grows b c) : Grows a c :=
  ⟨hbc.diagonal, fun _ hpair => hbc.subset (hab.subset hpair)⟩

/-- How a comparison of parameters treats diagonal pairs: a parameter fits itself, and does not fit
another one that is paired. -/
structure ComparesDiagonally (u : Unifier) (bound : Nat)
    (params : Nat → Nat → StateM Pairing Bool) : Prop where
  self : ∀ {i pairs}, i < u.required.length → u.Within bound pairs →
    ∃ pairs', (params i i).run pairs = (true, pairs') ∧ Grows pairs pairs' ∧ (i, i) ∈ pairs'
  known : ∀ {i pairs}, (i, i) ∈ pairs → u.Within bound pairs →
    (params i i).run pairs = (true, pairs)
  other : ∀ {i j pairs}, (j, j) ∈ pairs → i ≠ j → u.Within bound pairs →
    (params i j).run pairs = (false, pairs)

/-! ## Types -/

theorem concrete_self (variance : Variance) (ty : TypeRef) :
    u.concrete variance ty ty = true := by
  unfold concrete
  split
  · cases variance <;> simp [Registry.checkVariance, Registry.isAssignable_self]
  · simp [Registry.checkVariance]

/-- Every type fits itself; a generic parameter is paired by that. -/
theorem ComparesDiagonally.types_self {bound : Nat} {params : Nat → Nat → StateM Pairing Bool}
    (h : u.ComparesDiagonally bound params) (variance : Variance) (ty : TypeRef)
    (declared : ∀ i, ty = .param i → i < u.required.length) {pairs : Pairing}
    (within : u.Within bound pairs) :
    ∃ pairs', (u.types params variance ty ty).run pairs = (true, pairs') ∧ Grows pairs pairs' ∧
      ∀ i, ty = .param i → (i, i) ∈ pairs' := by
  cases ty with
  | param i =>
      obtain ⟨pairs', hrun, hgrows, hmem⟩ := h.self (declared i rfl) within
      refine ⟨pairs', hrun, hgrows, ?_⟩
      rintro j hj
      obtain rfl := TypeRef.param.inj hj
      exact hmem
  | builtin b =>
      refine ⟨pairs, ?_, within.refl_grows, by simp⟩
      simp only [types, concrete_self]
      rfl
  | named idx =>
      refine ⟨pairs, ?_, within.refl_grows, by simp⟩
      simp only [types, concrete_self]
      rfl

/-! ## Constraints -/

/-- If the constraint is a bound by a parameter, the parameter is paired with itself. -/
def Settled (pairs : Pairing) (c : Constraint) : Prop :=
  ∀ i, c = .bound (.param i) → (i, i) ∈ pairs

theorem Settled.mono {pairs pairs' : Pairing} {c : Constraint} (h : Settled pairs c)
    (subset : pairs ⊆ pairs') : Settled pairs' c :=
  fun i hi => subset (h i hi)

/-- A constraint corresponds to itself, and is settled by that. -/
theorem ComparesDiagonally.constraint_self {bound : Nat}
    {params : Nat → Nat → StateM Pairing Bool} (h : u.ComparesDiagonally bound params)
    {c : Constraint} (declared : ∀ i, c = .bound (.param i) → i < u.required.length)
    {pairs : Pairing} (within : u.Within bound pairs) :
    ∃ pairs', (u.constraint params c c).run pairs = (true, pairs') ∧ Grows pairs pairs' ∧
      Settled pairs' c := by
  cases c with
  | reference => exact ⟨pairs, rfl, within.refl_grows, by simp [Settled]⟩
  | value => exact ⟨pairs, rfl, within.refl_grows, by simp [Settled]⟩
  | bound ty =>
      obtain ⟨pairs', hrun, hgrows, hmem⟩ :=
        h.types_self .contravariant ty (fun i hi => declared i (hi ▸ rfl)) within
      exact ⟨pairs', hrun, hgrows, fun i hi => hmem i (Constraint.bound.inj hi)⟩

/-- Comparing with a settled constraint pairs nothing, and what corresponds to it is settled. -/
theorem ComparesDiagonally.constraint_settled {bound : Nat}
    {params : Nat → Nat → StateM Pairing Bool} (h : u.ComparesDiagonally bound params)
    (c : Constraint) {d : Constraint} {pairs : Pairing} (settled : Settled pairs d)
    (within : u.Within bound pairs) :
    ∃ fits, (u.constraint params c d).run pairs = (fits, pairs) ∧
      (fits = true → Settled pairs c) := by
  have hconcrete : ∀ ty, ty.isParam = false → Settled pairs (.bound ty) := by
    rintro ty hty i hi
    obtain rfl := Constraint.bound.inj hi
    simp [TypeRef.isParam] at hty
  cases c with
  | reference => cases d <;> exact ⟨_, rfl, fun _ => by simp [Settled]⟩
  | value => cases d <;> exact ⟨_, rfl, fun _ => by simp [Settled]⟩
  | bound required =>
      cases d with
      | reference => exact ⟨false, rfl, by simp⟩
      | value => exact ⟨false, rfl, by simp⟩
      | bound candidate =>
          cases required with
          | builtin b => cases candidate <;> exact ⟨_, rfl, fun _ => hconcrete _ rfl⟩
          | named idx => cases candidate <;> exact ⟨_, rfl, fun _ => hconcrete _ rfl⟩
          | param i =>
              cases candidate with
              | builtin b => exact ⟨false, rfl, by simp⟩
              | named idx => exact ⟨false, rfl, by simp⟩
              | param j =>
                  have hj : (j, j) ∈ pairs := settled j rfl
                  by_cases hij : i = j
                  · subst hij
                    exact ⟨true, h.known hj within, fun _ => settled⟩
                  · exact ⟨false, h.other hj hij within, by simp⟩

/-- A constraint finds its counterpart behind settled ones. -/
theorem ComparesDiagonally.anyM_constraint {bound : Nat}
    {params : Nat → Nat → StateM Pairing Bool} (h : u.ComparesDiagonally bound params)
    {c : Constraint} (declared : ∀ i, c = .bound (.param i) → i < u.required.length)
    (done rest : List Constraint) {pairs : Pairing} (settled : ∀ d ∈ done, Settled pairs d)
    (within : u.Within bound pairs) :
    ∃ pairs', ((done ++ c :: rest).anyM fun d => u.constraint params c d).run pairs =
        (true, pairs') ∧ Grows pairs pairs' ∧ Settled pairs' c := by
  induction done with
  | nil =>
      obtain ⟨pairs', hrun, hgrows, hsettled⟩ := h.constraint_self declared within
      refine ⟨pairs', ?_, hgrows, hsettled⟩
      rw [List.nil_append, List.anyM_cons, StateM.run_bind_of_run hrun]
      rfl
  | cons d done ih =>
      -- If an earlier constraint corresponds, it settles this one too.
      obtain ⟨fits, hrun, hfits⟩ := h.constraint_settled c (settled d (by simp)) within
      rw [List.cons_append, List.anyM_cons, StateM.run_bind_of_run hrun]
      cases fits with
      | true => exact ⟨pairs, rfl, within.refl_grows, hfits rfl⟩
      | false => exact ih fun d' hd' => settled d' (List.mem_cons_of_mem _ hd')

/-- A list of constraints corresponds to itself. The induction is on the constraints still to be
compared; those before them are settled. -/
theorem ComparesDiagonally.allM_constraints {bound : Nat}
    {params : Nat → Nat → StateM Pairing Bool} (h : u.ComparesDiagonally bound params)
    (cs : List Constraint)
    (declared : ∀ c ∈ cs, ∀ i, c = .bound (.param i) → i < u.required.length)
    (done todo : List Constraint) (split : cs = done ++ todo) {pairs : Pairing}
    (settled : ∀ d ∈ done, Settled pairs d) (within : u.Within bound pairs) :
    ∃ pairs', (todo.allM fun r => cs.anyM fun c => u.constraint params r c).run pairs =
        (true, pairs') ∧ Grows pairs pairs' := by
  induction todo generalizing done pairs with
  | nil => exact ⟨pairs, rfl, within.refl_grows⟩
  | cons c todo ih =>
      have hc : c ∈ cs := by simp [split]
      obtain ⟨middle, hany, hgrows, hsettled⟩ :=
        h.anyM_constraint (declared c hc) done todo settled within
      have hdone : ∀ d ∈ done ++ [c], Settled middle d := by
        intro d hd
        rcases List.mem_append.1 hd with hd | hd
        · exact (settled d hd).mono hgrows.subset
        · exact List.mem_singleton.1 hd ▸ hsettled
      obtain ⟨pairs', hall, hgrows'⟩ :=
        ih (done ++ [c]) (by simp [split]) hdone (within.grow hgrows)
      refine ⟨pairs', ?_, hgrows.trans hgrows'⟩
      rw [← split] at hany
      rw [List.allM_cons, StateM.run_bind_of_run hany]
      exact hall

theorem ComparesDiagonally.constraints_self {bound : Nat}
    {params : Nat → Nat → StateM Pairing Bool} (h : u.ComparesDiagonally bound params)
    (cs : List Constraint)
    (declared : ∀ c ∈ cs, ∀ i, c = .bound (.param i) → i < u.required.length)
    {pairs : Pairing} (within : u.Within bound pairs) :
    ∃ pairs', (u.constraints params cs cs).run pairs = (true, pairs') ∧ Grows pairs pairs' := by
  simpa [constraints] using h.allM_constraints cs declared [] cs rfl (by simp) within

/-! ## Parameters -/

/-- What a unifier is asked that compares a signature with itself: the parameters of one position
have the same constraints, and their bounds mention no parameter that is not there. -/
structure ComparesSame (u : Unifier) : Prop where
  same : u.candidate.map (·.constraints) = u.required.map (·.constraints)
  declared : ∀ p ∈ u.required, ∀ i, .bound (.param i) ∈ p.constraints → i < u.required.length

/-- Parameters of one position have one list of constraints. -/
theorem ComparesSame.getElem? (h : u.ComparesSame) {i : Nat} (hi : i < u.required.length) :
    ∃ required candidate, u.required[i]? = some required ∧ u.candidate[i]? = some candidate ∧
      candidate.constraints = required.constraints := by
  have hlength : u.candidate.length = u.required.length := by
    simpa using congrArg List.length h.same
  have hi' : i < u.candidate.length := hlength ▸ hi
  refine ⟨u.required[i], u.candidate[i], List.getElem?_eq_getElem hi, List.getElem?_eq_getElem hi',
    ?_⟩
  have hget := congrArg (·[i]?) h.same
  simpa [List.getElem?_eq_getElem, hi, hi'] using hget

/-- One step of comparing parameters, on the pairs made so far. -/
theorem run_params_succ (depth i j : Nat) (pairs : Pairing) :
    (u.params (depth + 1) i j).run pairs =
      if (i, j) ∈ pairs then (true, pairs)
      else if pairs.any fun (r', c') => r' = i ∨ c' = j then (false, pairs)
      else
        match u.required[i]?, u.candidate[j]? with
        | some required, some candidate =>
            (u.constraints (u.params depth) required.constraints candidate.constraints).run
              ((i, j) :: pairs)
        | _, _ => (false, (i, j) :: pairs) := by
  have hget : (get : StateM Pairing Pairing).run pairs = (pairs, pairs) := rfl
  have hset : (set ((i, j) :: pairs) : StateM Pairing PUnit).run pairs =
      (PUnit.unit, (i, j) :: pairs) := rfl
  rw [params, StateM.run_bind_of_run hget]
  split
  · rfl
  · split
    · rfl
    · rw [StateM.run_bind_of_run hset]
      cases u.required[i]? <;> cases u.candidate[j]? <;> rfl

theorem params_known (depth : Nat) {i : Nat} {pairs : Pairing} (h : (i, i) ∈ pairs) :
    (u.params (depth + 1) i i).run pairs = (true, pairs) := by
  rw [run_params_succ, if_pos h]

/-- A parameter that is paired with itself fits no other one. -/
theorem params_other {i j : Nat} {pairs : Pairing} (depth : Nat) (diagonal : pairs.Diagonal)
    (hj : (j, j) ∈ pairs) (hij : i ≠ j) : (u.params depth i j).run pairs = (false, pairs) := by
  cases depth with
  | zero => rfl
  | succ depth =>
      have hnew : (i, j) ∉ pairs := fun hmem => hij (diagonal _ hmem)
      have hconflict : (pairs.any fun (r', c') => r' = i ∨ c' = j) = true :=
        List.any_eq_true.2 ⟨(j, j), hj, by simp⟩
      rw [run_params_succ, if_neg hnew, if_pos hconflict]

/-- At every depth, parameters compare diagonally as long as fewer are unpaired than the depth. -/
theorem ComparesSame.comparesDiagonally (h : u.ComparesSame) (depth : Nat) :
    u.ComparesDiagonally depth (u.params depth) := by
  induction depth with
  | zero =>
      have hnone : ∀ pairs, ¬u.Within 0 pairs := fun pairs hw => Nat.not_lt_zero _ hw.few
      exact ⟨fun _ hw => absurd hw (hnone _), fun _ hw => absurd hw (hnone _),
        fun _ _ hw => absurd hw (hnone _)⟩
  | succ depth ih =>
      refine ⟨?_, fun hmem _ => params_known depth hmem,
        fun hmem hne hw => params_other _ hw.diagonal hmem hne⟩
      intro i pairs hi within
      by_cases hmem : (i, i) ∈ pairs
      · exact ⟨pairs, params_known depth hmem, within.refl_grows, hmem⟩
      -- A diagonal pair in the way of `(i, i)` would be `(i, i)`.
      have hfree : ¬(pairs.any fun (r', c') => r' = i ∨ c' = i) = true := by
        intro hany
        obtain ⟨⟨a, b⟩, hab, heq⟩ := List.any_eq_true.1 hany
        obtain rfl : a = b := within.diagonal _ hab
        obtain rfl : a = i := by simpa using heq
        exact hmem hab
      -- The steps below have one unpaired parameter fewer.
      have hpaired : u.Within depth ((i, i) :: pairs) :=
        ⟨within.diagonal.cons i, Nat.lt_of_lt_of_le (unpaired_cons_lt hi hmem)
          (Nat.le_of_lt_succ within.few)⟩
      obtain ⟨required, candidate, hrequired, hcandidate, hsame⟩ := h.getElem? hi
      obtain ⟨pairs', hrun, hgrows⟩ := ih.constraints_self required.constraints
        (fun c hc j hj => h.declared required (List.mem_of_getElem? hrequired) j (hj ▸ hc)) hpaired
      refine ⟨pairs', ?_, ⟨hgrows.diagonal, fun _ hp => hgrows.subset (List.mem_cons_of_mem _ hp)⟩,
        hgrows.subset List.mem_cons_self⟩
      rw [run_params_succ, if_neg hmem, if_neg hfree, hrequired, hcandidate]
      simpa only [hsame] using hrun

/-! ## Signatures -/

/-- The pairs are few enough for a comparison that starts a new chain. -/
theorem within_paramPair {pairs : Pairing} (h : pairs.Diagonal) :
    u.Within (u.required.length + 1) pairs :=
  ⟨h, Nat.lt_succ_of_le (unpaired_le pairs)⟩

theorem ComparesSame.types_self (h : u.ComparesSame) (variance : Variance) (ty : TypeRef)
    (declared : ∀ i, ty = .param i → i < u.required.length) {pairs : Pairing}
    (diagonal : pairs.Diagonal) :
    ∃ pairs', (u.types u.paramPair variance ty ty).run pairs = (true, pairs') ∧
      pairs'.Diagonal := by
  obtain ⟨pairs', hrun, hgrows, -⟩ :=
    (h.comparesDiagonally _).types_self variance ty declared (within_paramPair diagonal)
  exact ⟨pairs', hrun, hgrows.diagonal⟩

theorem ComparesSame.allM_types (h : u.ComparesSame) (tys : List TypeRef)
    (declared : ∀ i, .param i ∈ tys → i < u.required.length) {pairs : Pairing}
    (diagonal : pairs.Diagonal) :
    ∃ pairs', ((tys.zip tys).allM fun (r, c) => u.types u.paramPair .contravariant r c).run pairs =
      (true, pairs') ∧ pairs'.Diagonal := by
  induction tys generalizing pairs with
  | nil => exact ⟨pairs, rfl, diagonal⟩
  | cons ty tys ih =>
      obtain ⟨middle, hrun, hdiagonal⟩ :=
        h.types_self .contravariant ty (fun i hi => declared i (hi ▸ List.mem_cons_self)) diagonal
      rw [List.zip_cons_cons, List.allM_cons, StateM.run_bind_of_run hrun]
      exact ih (fun i hi => declared i (List.mem_cons_of_mem _ hi)) hdiagonal

end Unifier

/-- A signature unifies with any that has the same parameters, the same result and, position by
position, the same constraints on its generic parameters, however these are called. -/
theorem Registry.unifies_of_same {r : Registry} (substitute : Bool) {required candidate : Signature}
    (params : candidate.params = required.params) (ret : candidate.ret = required.ret)
    (constraints : candidate.generics.map (·.constraints) =
      required.generics.map (·.constraints))
    (declared : ∀ i, .param i ∈ required.params ∨ required.ret = .param i →
      i < required.generics.length)
    (bounds : ∀ p ∈ required.generics, ∀ i, .bound (.param i) ∈ p.constraints →
      i < required.generics.length) :
    r.unifies substitute required candidate = true := by
  have hgenerics : candidate.generics.length = required.generics.length := by
    simpa using congrArg List.length constraints
  let u := r.unifier substitute required candidate
  have same : u.ComparesSame := ⟨constraints, bounds⟩
  have hempty : Pairing.Diagonal [] := by simp [Pairing.Diagonal]
  obtain ⟨pairs, hparams, diagonal⟩ := same.allM_types required.params
    (fun i hi => declared i (Or.inl hi)) hempty
  obtain ⟨pairs', hret, -⟩ := same.types_self .covariant required.ret
    (fun i hi => declared i (Or.inr hi)) diagonal
  have hfits : ((u.signature required candidate).run []).1 = true := by
    unfold Unifier.signature
    rw [params, ret, StateM.run_bind_of_run hparams]
    by_cases hvoid : required.ret.isVoid = true
    · simp only [hvoid]
      rfl
    · simp only [hvoid]
      exact congrArg Prod.fst hret
  exact unifies_eq_true_iff.2 ⟨by rw [params], hgenerics.symm, hfits⟩

end Contracts
