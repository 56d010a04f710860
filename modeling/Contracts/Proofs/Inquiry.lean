import Contracts.Proofs.Solution

set_option autoImplicit false

/-! # Unification comes to an end

To compare two generic parameters a unifier compares their constraints, which may lead to further
parameters, and these may be bounded by themselves, by each other or by positions where no parameter
is declared. Here this is spelled out without a limit to the depth. An `Unifier.Inquiry` is a
comparison as far as it does not depend on the pairs: it asks whether two parameters fit, and goes
on with the answer. `Unifier.next` is one step: it answers what is asked from the pairs made so far,
or makes a pair, lets the comparison wait and turns to the constraints of the two parameters.

Each step keeps the pairs one to one, and counts no comparison of constraints that does not belong
to a pair of its own (`Unifier.Orderly.next`). So there are at most as many of them as there are
parameters on either side, which is why every comparison ends, and it ends with the answer of the
unifier (`Unifier.endsAt`). -/

namespace Contracts

namespace Unifier

open Pairing

/-! ## Inquiries -/

/-- A comparison with all that it asks about generic parameters and does with the answers. -/
inductive Inquiry
  | decided (fits : Bool)
  /-- Go on by whether the two parameters fit. -/
  | ask (i j : Nat) (resume : Bool → Inquiry)

namespace Inquiry

variable {α : Type}

/-- The comparison, given how to unify two generic parameters. -/
def run (params : Nat → Nat → StateM Pairing Bool) : Inquiry → StateM Pairing Bool
  | decided fits => pure fits
  | ask i j resume => do (resume (← params i j)).run params

/-- One comparison, and then what its outcome calls for. -/
def andThen (q : Inquiry) (f : Bool → Inquiry) : Inquiry :=
  match q with
  | decided fits => f fits
  | ask i j resume => ask i j fun fits => (resume fits).andThen f

/-- Whether all fit, up to the first that does not. -/
def all (f : α → Inquiry) : List α → Inquiry
  | [] => decided true
  | x :: xs => (f x).andThen fun fits => if fits then all f xs else decided false

/-- Whether any fits, up to the first that does. -/
def any (f : α → Inquiry) : List α → Inquiry
  | [] => decided false
  | x :: xs => (f x).andThen fun fits => if fits then decided true else any f xs

variable {params : Nat → Nat → StateM Pairing Bool}

theorem run_andThen (q : Inquiry) (f : Bool → Inquiry) :
    (q.andThen f).run params = q.run params >>= fun fits => (f fits).run params := by
  induction q with
  | decided fits => rfl
  | ask i j resume ih => simp only [andThen, run, ih, bind_assoc]

theorem run_all (f : α → Inquiry) (xs : List α) :
    (all f xs).run params = xs.allM fun x => (f x).run params := by
  induction xs with
  | nil => rfl
  | cons x xs ih =>
      rw [all, run_andThen, List.allM_cons]
      refine bind_congr fun fits => ?_
      cases fits with
      | true => exact ih
      | false => rfl

theorem run_any (f : α → Inquiry) (xs : List α) :
    (any f xs).run params = xs.anyM fun x => (f x).run params := by
  induction xs with
  | nil => rfl
  | cons x xs ih =>
      rw [any, run_andThen, List.anyM_cons]
      refine bind_congr fun fits => ?_
      cases fits with
      | true => rfl
      | false => exact ih

end Inquiry

/-! ## What a unifier asks -/

variable {u : Unifier} {params : Nat → Nat → StateM Pairing Bool}

/-- What comparing two types asks. -/
def askTypes (u : Unifier) (variance : Variance) : TypeRef → TypeRef → Inquiry
  | .param i, .param j => .ask i j .decided
  | .param _, _ | _, .param _ => .decided false
  | required, candidate => .decided (u.concrete variance required candidate)

/-- What comparing two constraints asks. -/
def askConstraint (u : Unifier) : Constraint → Constraint → Inquiry
  | .reference, .reference | .value, .value => .decided true
  | .bound required, .bound candidate => u.askTypes .contravariant required candidate
  | _, _ => .decided false

/-- What comparing two lists of constraints asks. -/
def askConstraints (u : Unifier) (required candidate : List Constraint) : Inquiry :=
  if required.length = candidate.length then
    .all (fun a => .any (u.askConstraint a) candidate) required
  else .decided false

/-- What comparing two signatures asks. -/
def askSignature (u : Unifier) (required candidate : Signature) : Inquiry :=
  (Inquiry.all (fun p => u.askTypes .contravariant p.1 p.2)
    (required.params.zip candidate.params)).andThen fun fits =>
      if !fits then .decided false
      else if required.ret.isVoid ∨ candidate.ret.isVoid then
        .decided (required.ret = candidate.ret)
      else u.askTypes .covariant required.ret candidate.ret

theorem run_askTypes (variance : Variance) (required candidate : TypeRef) :
    (u.askTypes variance required candidate).run params =
      u.types params variance required candidate := by
  cases required with
  | param i => cases candidate <;> simp [askTypes, types, Inquiry.run]
  | builtin b => cases candidate <;> rfl
  | named idx => cases candidate <;> rfl

theorem run_askConstraint (required candidate : Constraint) :
    (u.askConstraint required candidate).run params =
      u.constraint params required candidate := by
  cases required with
  | reference => cases candidate <;> rfl
  | value => cases candidate <;> rfl
  | bound ty =>
      cases candidate with
      | reference => rfl
      | value => rfl
      | bound ty' => exact run_askTypes .contravariant ty ty'

theorem run_askConstraints (required candidate : List Constraint) :
    (u.askConstraints required candidate).run params =
      u.constraints params required candidate := by
  unfold askConstraints constraints
  split
  · simp only [Inquiry.run_all, Inquiry.run_any, run_askConstraint]
  · rfl

theorem run_askSignature (required candidate : Signature) :
    (u.askSignature required candidate).run u.paramPair = u.signature required candidate := by
  unfold askSignature signature
  rw [Inquiry.run_andThen, Inquiry.run_all]
  simp only [run_askTypes]
  refine bind_congr fun fits => ?_
  cases fits with
  | false => rfl
  | true =>
      simp only [Bool.not_true, Bool.false_eq_true, if_false]
      split
      · rfl
      · exact run_askTypes ..

/-! ## Steps -/

/-- How far a unifier has come. -/
structure Progress where
  pairs : Pairing
  /-- The parameters whose lists of constraints it has begun to compare. -/
  compared : List (Nat × Nat)
  /-- What it is comparing. -/
  current : Inquiry
  /-- What waits for the outcome, innermost first. -/
  waiting : List (Bool → Inquiry)

/-- The start of a comparison: nothing is paired. -/
def Progress.start (q : Inquiry) : Progress := ⟨[], [], q, []⟩

/-- One step, unless the comparison is over. Parameters that are paired already fit, and ones that
are paired with others do not; else they are paired now, and their constraints are compared if both
are there. -/
def next (u : Unifier) (s : Progress) : Option Progress :=
  match s.current with
  | .decided fits =>
      match s.waiting with
      | [] => none
      | resume :: waiting => some { s with current := resume fits, waiting }
  | .ask i j resume =>
      if s.pairs.contains (i, j) then some { s with current := resume true }
      else if s.pairs.any fun p => p.1 = i ∨ p.2 = j then some { s with current := resume false }
      else
        match u.required[i]?, u.candidate[j]? with
        | some required, some candidate =>
            some {
              pairs := (i, j) :: s.pairs
              compared := (i, j) :: s.compared
              current := u.askConstraints required.constraints candidate.constraints
              waiting := resume :: s.waiting }
        | _, _ => some { s with pairs := (i, j) :: s.pairs, current := resume false }

/-- The unifier comes from one point to the other, in any number of steps. -/
abbrev Comes (u : Unifier) : Progress → Progress → Prop :=
  Relation.ReflTransGen fun s s' => u.next s = some s'

/-! ## What each step keeps -/

/-- The pairs are one to one, and each comparison of constraints belongs to a pair of its own, of
two parameters that are there. -/
structure Orderly (u : Unifier) (s : Progress) : Prop where
  required : (s.pairs.map Prod.fst).Nodup
  candidate : (s.pairs.map Prod.snd).Nodup
  compared : s.compared.Sublist s.pairs
  declared : ∀ p ∈ s.compared, p.1 < u.required.length ∧ p.2 < u.candidate.length

variable {s s' : Progress}

theorem orderly_start (u : Unifier) (q : Inquiry) : u.Orderly (.start q) :=
  ⟨List.nodup_nil, List.nodup_nil, .slnil, by simp [Progress.start]⟩

/-- A step leaves the pairs and the counted comparisons alone, or it makes one pair of parameters
that were free. A comparison that it counts is that of the new pair, whose parameters are there. -/
theorem pairs_of_next (h : u.next s = some s') :
    s'.pairs = s.pairs ∧ s'.compared = s.compared ∨
      ∃ i j, (∀ p ∈ s.pairs, p.1 ≠ i ∧ p.2 ≠ j) ∧ s'.pairs = (i, j) :: s.pairs ∧
        (s'.compared = s.compared ∨ s'.compared = (i, j) :: s.compared ∧
          i < u.required.length ∧ j < u.candidate.length) := by
  unfold next at h
  split at h
  · split at h
    · exact absurd h (by simp)
    · obtain rfl := Option.some.inj h
      exact Or.inl ⟨rfl, rfl⟩
  · rename_i i j resume _
    split at h
    · obtain rfl := Option.some.inj h
      exact Or.inl ⟨rfl, rfl⟩
    · split at h
      · obtain rfl := Option.some.inj h
        exact Or.inl ⟨rfl, rfl⟩
      · rename_i hfree
        have hfree : ∀ p ∈ s.pairs, p.1 ≠ i ∧ p.2 ≠ j := fun p hp => not_or.1 fun hor =>
          hfree (List.any_eq_true.2 ⟨p, hp, decide_eq_true hor⟩)
        refine Or.inr ⟨i, j, hfree, ?_⟩
        split at h
        · rename_i hi hj
          obtain rfl := Option.some.inj h
          exact ⟨rfl, Or.inr ⟨rfl, (List.getElem?_eq_some_iff.1 hi).1,
            (List.getElem?_eq_some_iff.1 hj).1⟩⟩
        · obtain rfl := Option.some.inj h
          exact ⟨rfl, Or.inl rfl⟩

/-- One step keeps the order. -/
theorem Orderly.next (orderly : u.Orderly s) (h : u.next s = some s') : u.Orderly s' := by
  rcases pairs_of_next h with ⟨hpairs, hcompared⟩ | ⟨i, j, hfree, hpairs, hcompared⟩
  · exact ⟨hpairs ▸ orderly.required, hpairs ▸ orderly.candidate,
      hpairs ▸ hcompared ▸ orderly.compared, hcompared ▸ orderly.declared⟩
  · have hi : i ∉ s.pairs.map Prod.fst := by
      rintro hmem
      obtain ⟨p, hp, rfl⟩ := List.mem_map.1 hmem
      exact (hfree p hp).1 rfl
    have hj : j ∉ s.pairs.map Prod.snd := by
      rintro hmem
      obtain ⟨p, hp, rfl⟩ := List.mem_map.1 hmem
      exact (hfree p hp).2 rfl
    refine ⟨?_, ?_, ?_, ?_⟩
    · rw [hpairs]
      exact List.nodup_cons.2 ⟨hi, orderly.required⟩
    · rw [hpairs]
      exact List.nodup_cons.2 ⟨hj, orderly.candidate⟩
    · rcases hcompared with hsame | ⟨hnew, -⟩
      · rw [hpairs, hsame]
        exact orderly.compared.cons _
      · rw [hpairs, hnew]
        exact orderly.compared.cons_cons _
    · rcases hcompared with hsame | ⟨hnew, hdeclared⟩
      · rw [hsame]
        exact orderly.declared
      · rw [hnew]
        exact List.forall_mem_cons.2 ⟨hdeclared, orderly.declared⟩

/-- A whole run keeps the order. -/
theorem Orderly.comes (orderly : u.Orderly s) (h : u.Comes s s') : u.Orderly s' := by
  induction h with
  | refl => exact orderly
  | tail _ hstep ih => exact ih.next hstep

/-- Different positions below a bound are no more than the bound. -/
theorem length_le_of_nodup {n : Nat} {is : List Nat} (distinct : is.Nodup)
    (below : ∀ i ∈ is, i < n) : is.length ≤ n := by
  have hsub : is.Subperm (List.range n) :=
    List.subperm_of_subset distinct fun i hi => List.mem_range.2 (below i hi)
  exact hsub.length_le.trans_eq List.length_range

/-- There are no more comparisons of constraints than parameters on either side. -/
theorem Orderly.compared_le (orderly : u.Orderly s) :
    s.compared.length ≤ min u.required.length u.candidate.length := by
  have hrequired : (s.compared.map Prod.fst).length ≤ u.required.length := by
    refine length_le_of_nodup (orderly.required.sublist (orderly.compared.map _)) fun i hi => ?_
    obtain ⟨p, hp, rfl⟩ := List.mem_map.1 hi
    exact (orderly.declared p hp).1
  have hcandidate : (s.compared.map Prod.snd).length ≤ u.candidate.length := by
    refine length_le_of_nodup (orderly.candidate.sublist (orderly.compared.map _)) fun j hj => ?_
    obtain ⟨p, hp, rfl⟩ := List.mem_map.1 hj
    exact (orderly.declared p hp).2
  rw [List.length_map] at hrequired hcandidate
  exact Nat.le_min.2 ⟨hrequired, hcandidate⟩

theorem pairs_subset_of_comes (h : u.Comes s s') : s.pairs ⊆ s'.pairs := by
  induction h with
  | refl => exact List.Subset.refl _
  | tail _ hstep ih =>
      rcases pairs_of_next hstep with ⟨hpairs, -⟩ | ⟨i, j, -, hpairs, -⟩
      · rwa [hpairs]
      · rw [hpairs]
        exact List.subset_cons_of_subset _ ih

/-! ## Every comparison ends -/

variable {depth : Nat} {pairs : Pairing}

/-- Whenever fewer parameters than the depth are without a pair, an inquiry comes to the outcome
that is computed at that depth, with what waits for it left waiting. -/
def EndsAt (u : Unifier) (depth : Nat) : Prop :=
  ∀ (q : Inquiry) (pairs : Pairing) (compared : List (Nat × Nat))
    (waiting : List (Bool → Inquiry)), (u.unmatched pairs).card < depth →
    ∃ compared', u.Comes ⟨pairs, compared, q, waiting⟩
      ⟨((q.run (u.params depth)).run pairs).2, compared',
        .decided ((q.run (u.params depth)).run pairs).1, waiting⟩

/-- Parameters that are in no pair are paired, and their constraints are compared if both are
there. -/
theorem next_of_free (u : Unifier) {i j : Nat} (compared : List (Nat × Nat))
    (resume : Bool → Inquiry) (waiting : List (Bool → Inquiry)) (known : (i, j) ∉ pairs)
    (conflict : ¬(pairs.any fun p => p.1 = i ∨ p.2 = j) = true) :
    u.next ⟨pairs, compared, .ask i j resume, waiting⟩ =
      match u.required[i]?, u.candidate[j]? with
      | some p, some q =>
          some ⟨(i, j) :: pairs, (i, j) :: compared,
            u.askConstraints p.constraints q.constraints, resume :: waiting⟩
      | _, _ => some ⟨(i, j) :: pairs, compared, resume false, waiting⟩ := by
  simp only [next, List.contains_iff_mem, if_neg known, if_neg conflict]

/-- A question is answered at once, or after a comparison of constraints at the depth below. -/
theorem EndsAt.comes_answer (h : u.EndsAt depth) (i j : Nat) (resume : Bool → Inquiry)
    (compared : List (Nat × Nat)) (waiting : List (Bool → Inquiry))
    (few : (u.unmatched pairs).card < depth + 1) :
    ∃ compared', u.Comes ⟨pairs, compared, .ask i j resume, waiting⟩
      ⟨((u.params (depth + 1) i j).run pairs).2, compared',
        resume ((u.params (depth + 1) i j).run pairs).1, waiting⟩ := by
  rw [run_params_succ]
  by_cases known : (i, j) ∈ pairs
  · refine ⟨compared, .single ?_⟩
    simp only [next, List.contains_iff_mem, if_pos known]
  by_cases conflict : (pairs.any fun p => p.1 = i ∨ p.2 = j) = true
  · refine ⟨compared, .single ?_⟩
    simp only [next, List.contains_iff_mem, if_neg known, if_pos conflict]
  have hfree : ∀ p ∈ pairs, p.1 ≠ i ∧ p.2 ≠ j := fun p hp => not_or.1 fun hor =>
    conflict (List.any_eq_true.2 ⟨p, hp, decide_eq_true hor⟩)
  have hnext := u.next_of_free compared resume waiting known conflict
  rw [if_neg known, if_neg conflict]
  cases hrequired : u.required[i]? with
  | none =>
      rw [hrequired] at hnext
      exact ⟨compared, .single hnext⟩
  | some p =>
      cases hcandidate : u.candidate[j]? with
      | none =>
          rw [hrequired, hcandidate] at hnext
          exact ⟨compared, .single hnext⟩
      | some q =>
          have hi : i < u.required.length := (List.getElem?_eq_some_iff.1 hrequired).1
          have hfew : (u.unmatched ((i, j) :: pairs)).card < depth :=
            Nat.lt_of_lt_of_le (unmatched_card_cons_lt hi hfree) (Nat.le_of_lt_succ few)
          obtain ⟨compared', hcompare⟩ := h (u.askConstraints p.constraints q.constraints)
            ((i, j) :: pairs) ((i, j) :: compared) (resume :: waiting) hfew
          rw [run_askConstraints] at hcompare
          rw [hrequired, hcandidate] at hnext
          have hfirst : u.Comes ⟨pairs, compared, .ask i j resume, waiting⟩
              ⟨(i, j) :: pairs, (i, j) :: compared,
                u.askConstraints p.constraints q.constraints, resume :: waiting⟩ := .single hnext
          exact ⟨compared', (hfirst.trans hcompare).tail rfl⟩

/-- Every depth is enough for as many parameters as it has room for. The induction is on the depth,
since each step down makes a pair, and at one depth on what the inquiry still asks. -/
theorem endsAt (u : Unifier) (depth : Nat) : u.EndsAt depth := by
  induction depth with
  | zero => exact fun _ _ _ _ few => absurd few (Nat.not_lt_zero _)
  | succ depth ih =>
      intro q
      induction q with
      | decided fits => exact fun _ compared _ _ => ⟨compared, .refl⟩
      | ask i j resume ihq =>
          intro pairs compared waiting few
          obtain ⟨compared', hanswer⟩ := ih.comes_answer i j resume compared waiting few
          -- Pairs are never lost, so no more parameters are without one than before.
          have hfew := Nat.lt_of_le_of_lt (unmatched_card_mono (pairs_subset_of_comes hanswer)) few
          obtain ⟨compared'', hrest⟩ := ihq _ _ compared' waiting hfew
          exact ⟨compared'', hanswer.trans hrest⟩

/-- **Unification comes to an end.** However the generic parameters of two signatures are bounded,
by themselves, in cycles or by positions where there is none, comparing the signatures is over after
finitely many steps, with the answer of `Registry.unifies`. At every point on the way no parameter
of either side is in two pairs, and no more comparisons of constraints have been begun than either
signature has generic parameters. -/
theorem comparison_ends (r : Registry) (substitute : Bool) (required candidate : Signature) :
    (∃ last fits, (r.unifier substitute required candidate).Comes
        (.start ((r.unifier substitute required candidate).askSignature required candidate)) last ∧
      last.current = .decided fits ∧ last.waiting = [] ∧
      r.unifies substitute required candidate =
        (required.params.length = candidate.params.length &&
          required.generics.length = candidate.generics.length && fits)) ∧
    ∀ s, (r.unifier substitute required candidate).Comes
        (.start ((r.unifier substitute required candidate).askSignature required candidate)) s →
      (s.pairs.map Prod.fst).Nodup ∧ (s.pairs.map Prod.snd).Nodup ∧
        s.compared.length ≤ min required.generics.length candidate.generics.length := by
  let u := r.unifier substitute required candidate
  constructor
  · have hfew : (u.unmatched []).card < u.required.length + 1 :=
      Nat.lt_succ_of_le (unmatched_card_le [])
    obtain ⟨compared, hends⟩ := u.endsAt _ (u.askSignature required candidate) [] [] [] hfew
    refine ⟨_, _, hends, rfl, rfl, Bool.eq_iff_iff.2 ?_⟩
    have hrun : (u.askSignature required candidate).run (u.params (u.required.length + 1)) =
        u.signature required candidate := run_askSignature required candidate
    rw [Registry.unifies_eq_true_iff, hrun]
    simp only [Bool.and_eq_true, decide_eq_true_eq, and_assoc]
    rfl
  · intro s hcomes
    have horderly := (u.orderly_start (u.askSignature required candidate)).comes hcomes
    exact ⟨horderly.required, horderly.candidate, horderly.compared_le⟩

end Unifier

end Contracts
