import Contracts.Registry

set_option autoImplicit false

/-! # Assignability

When a value of one type may be stored where another is expected without being asked for: the same
type, `object`, numeric widening, and the types that a declared type reaches along its base,
contracts and parents. Links may form cycles or lead to undeclared positions. -/

namespace Contracts

/-- The direction of a comparison of a candidate's type with a required one. -/
inductive Variance
  /-- The types are the same. -/
  | invariant
  /-- The candidate is assignable to the required type, as results are. -/
  | covariant
  /-- The required type is assignable to the candidate, as parameters are. -/
  | contravariant
deriving DecidableEq

namespace Registry

/-- The number of declared types that are not in `visited`. -/
def unvisited (r : Registry) (visited : List TypeIdx) : Nat :=
  (List.range r.types.size).countP fun i => TypeIdx.mk i ∉ visited

theorem unvisited_cons_le (r : Registry) (visited : List TypeIdx) (idx : TypeIdx) :
    r.unvisited (idx :: visited) ≤ r.unvisited visited := by
  apply List.countP_mono_left
  simp only [decide_eq_true_eq, List.mem_cons, not_or]
  exact fun _ _ h => h.2

/-- Visiting a declared type leaves fewer to visit. -/
theorem unvisited_cons_lt (r : Registry) {visited : List TypeIdx} {idx : TypeIdx}
    (declared : idx.index < r.types.size) (new : idx ∉ visited) :
    r.unvisited (idx :: visited) < r.unvisited visited := by
  unfold unvisited
  rw [List.countP_eq_length_filter, List.countP_eq_length_filter]
  have mem : idx.index ∈ (List.range r.types.size).filter fun i => TypeIdx.mk i ∉ visited := by
    simp [declared, new]
  have sub : (List.range r.types.size).filter (fun i => TypeIdx.mk i ∉ idx :: visited) =
      ((List.range r.types.size).filter fun i => TypeIdx.mk i ∉ visited).filter
        (fun i => i ≠ idx.index) := by
    rw [List.filter_filter]
    apply List.filter_congr
    intro i _
    cases idx
    simp
  rw [sub]
  exact List.length_filter_lt_length_iff_exists.2 ⟨idx.index, mem, by simp⟩

/-- What a position leads to if each declared type leads to the types that `next` lists; where
nothing is declared, that is nothing. -/
def successors (r : Registry) (next : TypeDef → List TypeIdx) (idx : TypeIdx) : List TypeIdx :=
  ((r.type? idx).map next).getD []

theorem successors_eq_nil (r : Registry) (next : TypeDef → List TypeIdx) {idx : TypeIdx}
    (h : ¬idx.index < r.types.size) : r.successors next idx = [] := by
  simp [successors, type?, Array.getElem?_eq_none (Nat.le_of_not_lt h)]

/-- The positions in `pending` and all that they lead to in depth-first order, each on first arrival
only, without those in `visited`. -/
def walk (r : Registry) (next : TypeDef → List TypeIdx) (visited : List TypeIdx) :
    List TypeIdx → List TypeIdx
  | [] => []
  | idx :: pending =>
      if idx ∈ visited then r.walk next visited pending
      else idx :: r.walk next (idx :: visited) (r.successors next idx ++ pending)
termination_by pending => (r.unvisited visited, pending.length)
decreasing_by
  · exact Prod.Lex.right _ (by simp)
  · by_cases h : idx.index < r.types.size
    · exact Prod.Lex.left _ _ (r.unvisited_cons_lt h ‹_›)
    · rw [r.successors_eq_nil next h]
      rcases Nat.lt_or_eq_of_le (r.unvisited_cons_le visited idx) with lt | eq
      · exact Prod.Lex.left _ _ lt
      · rw [eq]
        exact Prod.Lex.right _ (by simp)

/-- The types that a declared type names. -/
def links (r : Registry) : TypeIdx → List TypeIdx := r.successors TypeDef.links

/-- Whether a type reaches another along the links of declared types; every type reaches itself. -/
def derivesFrom (r : Registry) (idx ancestor : TypeIdx) : Bool :=
  (r.walk TypeDef.links [] [idx]).contains ancestor

/-- Whether a value of `source` can be stored in a place of `target`. -/
def isAssignable (r : Registry) (source target : TypeRef) : Bool :=
  if source = target then true
  else
    match source, target with
    | .param _, _ | _, .param _ => false
    | .builtin .void, _ | _, .builtin .void => false
    | _, .builtin .object => true
    | .builtin a, .builtin b => a.widensTo b
    | .named a, .named b => r.derivesFrom a b
    | _, _ => false

/-- Compare a candidate's type with a required one in a direction. -/
def checkVariance (r : Registry) (candidate required : TypeRef) : Variance → Bool
  | .invariant => candidate = required
  | .covariant => r.isAssignable candidate required
  | .contravariant => r.isAssignable required candidate

end Registry

end Contracts
