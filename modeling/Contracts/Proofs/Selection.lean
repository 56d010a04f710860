import Contracts.Proofs.Forwarding
import Contracts.Proofs.Resolution

set_option autoImplicit false

/-! # Which slot a call goes to

The index of an adapter type lists the positions at which each name stands, in ascending order
(`SlotIndex.lookup_ofNames`), so the candidates for a call are the slots of its name in the order of
the contract (`AdapterType.candidates?_synthesize`). Of these the first that accepts the arguments
is picked: a call goes to an operation of the contract if no operation of the same name before it
accepts the arguments (`Registry.picks_of_goesTo`), and then it runs what that operation is bound to
(`Provider.callIs_of_offers`). -/

namespace Contracts

/-! ## Positions by name -/

namespace SlotIndex

/-- The positions at which a name stands in a list. -/
def positions (names : List String) (name : String) : List Nat :=
  (names.zipIdx.filter (·.1 = name)).map (·.2)

variable {names : List String} {name : String}

theorem mem_positions_iff {i : Nat} : i ∈ positions names name ↔ names[i]? = some name := by
  unfold positions
  rw [List.mem_map]
  constructor
  · rintro ⟨⟨n, j⟩, hmem, rfl⟩
    obtain ⟨hentry, hname⟩ := List.mem_filter.1 hmem
    rw [List.mem_zipIdx_iff_getElem?.1 hentry, of_decide_eq_true hname]
  · intro h
    exact ⟨(name, i), List.mem_filter.2 ⟨List.mem_zipIdx_iff_getElem?.2 h, by simp⟩, rfl⟩

theorem positions_ascending (names : List String) (name : String) :
    (positions names name).Pairwise (· < ·) := by
  have hall : (names.zipIdx.map (·.2)).Pairwise (· < ·) := by
    rw [List.zipIdx_map_snd]
    exact List.pairwise_lt_range'
  exact hall.sublist (List.filter_sublist.map _)

theorem positions_eq_nil_iff : positions names name = [] ↔ name ∉ names := by
  rw [List.eq_nil_iff_forall_not_mem, List.mem_iff_getElem?, not_exists]
  simp only [mem_positions_iff]

/-- Positions are added after the ones that their names had before. -/
theorem lookup_foldl_add (entries : List (String × Nat)) (index : SlotIndex) (name : String) :
    (entries.foldl (fun index (n, position) => add n position index) index).lookup name =
      if (entries.filter (·.1 = name)).map (·.2) = [] then index.lookup name
      else some ((index.lookup name).getD [] ++ (entries.filter (·.1 = name)).map (·.2)) := by
  induction entries generalizing index with
  | nil => simp
  | cons entry entries ih =>
      obtain ⟨n, position⟩ := entry
      rw [List.foldl_cons, ih, lookup_add]
      by_cases h : name = n
      · subst h
        rw [if_pos rfl, List.filter_cons_of_pos (by simp)]
        split <;> simp [*]
      · rw [if_neg h, List.filter_cons_of_neg (by simpa using Ne.symm h)]

/-- A name has its positions in the index, and no entry if it has none. -/
theorem lookup_ofNames (names : List String) (name : String) :
    (ofNames names).lookup name =
      if positions names name = [] then none else some (positions names name) := by
  unfold ofNames
  rw [lookup_foldl_add]
  rfl

end SlotIndex

/-! ## Slots by name -/

/-- Looking up the positions at which some elements stand gives these elements. -/
theorem filterMap_getElem?_zipIdx {α : Type} (xs : List α) (p : α → Bool) :
    ((xs.zipIdx.filter fun e => p e.1).map (·.2)).filterMap (xs[·]?) = xs.filter p := by
  have hfound : ∀ e ∈ xs.zipIdx.filter fun e => p e.1, xs[e.2]? = some e.1 := by
    intro e he
    exact List.mem_zipIdx_iff_getElem?.1 (List.mem_filter.1 he).1
  calc ((xs.zipIdx.filter fun e => p e.1).map (·.2)).filterMap (xs[·]?)
      = (xs.zipIdx.filter fun e => p e.1).filterMap fun e => some e.1 := by
        rw [List.filterMap_map]
        exact List.filterMap_congr hfound
    _ = (xs.zipIdx.map (·.1)).filter p := by
        rw [List.filterMap_eq_map', List.filter_map]
        rfl
    _ = xs.filter p := by rw [List.zipIdx_map_fst]

/-- The slot of a binding. -/
def Slot.ofBinding (b : Binding) : Slot := ⟨b.operation.slotName, b⟩

namespace AdapterType

variable {r : Registry} {name : String} {args : List Value}

theorem slots_synthesize (n : Nat) (result : MatchResult) :
    (synthesize n result).slots = result.bindings.map Slot.ofBinding := rfl

/-- The candidates for a name are the slots of that name, in order. -/
theorem candidates?_synthesize (n : Nat) (result : MatchResult) (name : String) :
    (synthesize n result).candidates? name =
      if (synthesize n result).slots.filter (·.name = name) = [] then none
      else some ((synthesize n result).slots.filter (·.name = name)) := by
  generalize hslots : (synthesize n result).slots = slots
  have hindex : (synthesize n result).index = .ofNames (slots.map (·.name)) := by
    rw [← hslots]
    rfl
  have hfound : (SlotIndex.positions (slots.map (·.name)) name).filterMap (slots[·]?) =
      slots.filter (·.name = name) := by
    rw [← filterMap_getElem?_zipIdx slots, SlotIndex.positions, List.zipIdx_map, List.filter_map,
      List.map_map]
    rfl
  have hnil : SlotIndex.positions (slots.map (·.name)) name = [] ↔
      slots.filter (·.name = name) = [] := by
    rw [SlotIndex.positions_eq_nil_iff, List.filter_eq_nil_iff]
    simp
  unfold candidates?
  rw [hindex, SlotIndex.lookup_ofNames, hslots]
  by_cases h : slots.filter (·.name = name) = []
  · rw [if_pos h, if_pos (hnil.2 h), Option.map_none]
  · rw [if_neg h, if_neg fun hpositions => h (hnil.1 hpositions), Option.map_some, hfound]

theorem mismatch?_eq_none_of_accepted {params : List TypeRef}
    (accepted : List.Forall₂ (fun ty v => r.accepts ty v = true) params args) :
    mismatch? r params args = none := by
  refine List.find?_eq_none.2 fun ⟨ty, v⟩ hmem => ?_
  simpa using (List.forall₂_iff_zip.1 accepted).2 hmem

/-- The first slot that accepts the arguments is selected, whatever went wrong before. -/
theorem select_append (a : AdapterType) {before after : List Slot} {slot : Slot}
    {failure : Option EvalError}
    (rejected : ∀ s ∈ before, ¬List.Forall₂ (fun ty v => r.accepts ty v = true)
      s.binding.operation.params args)
    (accepted : List.Forall₂ (fun ty v => r.accepts ty v = true) slot.binding.operation.params
      args) :
    a.select r name args failure (before ++ slot :: after) = .ok slot := by
  induction before generalizing failure with
  | nil =>
      have hlength : ¬slot.binding.operation.params.length ≠ args.length :=
        not_not.2 accepted.length_eq
      simp only [List.nil_append, select, if_neg hlength, mismatch?_eq_none_of_accepted accepted]
  | cons first before ih =>
      have hrest : ∀ failure, a.select r name args failure (before ++ slot :: after) = .ok slot :=
        fun _ => ih fun s hs => rejected s (List.mem_cons_of_mem _ hs)
      rw [List.cons_append, select]
      split
      · exact hrest _
      · rename_i hlength
        split
        · rename_i hmismatch
          exact absurd (accepted_of_mismatch?_eq_none (not_not.1 hlength) hmismatch)
            (rejected first List.mem_cons_self)
        · exact hrest _

end AdapterType

/-! ## Operations by name -/

/-- A call under the operation's name with the arguments goes to the operation: no operation of that
name before it accepts them. -/
def ContractSpec.GoesTo (spec : ContractSpec) (r : Registry) (op : Operation) (args : List Value) :
    Prop :=
  ∃ before after, spec.operations = before ++ op :: after ∧
    ∀ earlier ∈ before, earlier.slotName = op.slotName →
      ¬List.Forall₂ (fun ty v => r.accepts ty v = true) earlier.params args

namespace Registry

variable {r : Registry} {config : Config} {ty : ImplType} {spec : ContractSpec} {op : Operation}
  {b : Binding} {args : List Value}

/-- A call that goes to an operation which accepts the arguments picks the slot of its binding. -/
theorem picks_of_goesTo (n : Nat) (goes : spec.GoesTo r op args)
    (bound : r.resolve config ty op = some b)
    (accepted : List.Forall₂ (fun ty v => r.accepts ty v = true) op.params args) :
    (AdapterType.synthesize n (r.matchSpec config ty spec)).Picks r op.slotName args
      ⟨op.slotName, b⟩ := by
  obtain ⟨before, after, hsplit, hrejected⟩ := goes
  have hoperation := operation_of_resolve bound
  have hbindings : (r.matchSpec config ty spec).bindings =
      before.filterMap (r.resolve config ty) ++ b :: after.filterMap (r.resolve config ty) := by
    rw [matchSpec, hsplit, List.filterMap_append, List.filterMap_cons_some bound]
  have hslots : (AdapterType.synthesize n (r.matchSpec config ty spec)).slots =
      (before.filterMap (r.resolve config ty)).map Slot.ofBinding ++
        ⟨op.slotName, b⟩ :: (after.filterMap (r.resolve config ty)).map Slot.ofBinding := by
    rw [AdapterType.slots_synthesize, hbindings, List.map_append, List.map_cons, Slot.ofBinding,
      hoperation]
  have hcandidates := AdapterType.candidates?_synthesize n (r.matchSpec config ty spec) op.slotName
  rw [hslots, List.filter_append, List.filter_cons_of_pos (by simp), if_neg (by simp)]
    at hcandidates
  refine ⟨_, hcandidates, AdapterType.select_append _ (fun s hs => ?_) ?_⟩
  · obtain ⟨hmem, hname⟩ := List.mem_filter.1 hs
    obtain ⟨earlier, hearlier, rfl⟩ := List.mem_map.1 hmem
    obtain ⟨op', hop', hresolve⟩ := List.mem_filterMap.1 hearlier
    obtain rfl := operation_of_resolve hresolve
    exact hrejected _ hop' (of_decide_eq_true hname)
  · rwa [hoperation]

variable (r config) in
/-- The type satisfies the contract, and a call under the operation's name with the arguments goes
to the operation. -/
def Offers (ty : ImplType) (contract : TypeIdx) (op : Operation) (args : List Value) : Prop :=
  ∃ spec, r.isPublic ty = true ∧ r.extract contract = .ok spec ∧
    (r.matchSpec config ty spec).satisfied = true ∧ spec.GoesTo r op args

end Registry

/-! ## Calls of converted values -/

namespace Provider

variable {r : Registry} {config : Config} {s : State} {v : Value} {ty : ImplType}
  {contract : TypeIdx} {op : Operation} {args : List Value} {b : Binding}

variable (r config) in
/-- The value is converted to the contract, and calling the operation on the adapter with the
arguments is the given computation. -/
def CallIs (s : State) (v : Value) (contract : TypeIdx) (op : Operation) (args : List Value)
    (run : Eval Value) : Prop :=
  ∃ adapter, outcome (convert r config v contract) s = .ok adapter ∧
    adapter.call r op.slotName args = run

/-- A call has one result. -/
theorem CallIs.unique {run run' : Eval Value} (h : CallIs r config s v contract op args run)
    (h' : CallIs r config s v contract op args run') : run = run' := by
  obtain ⟨adapter, hconvert, rfl⟩ := h
  obtain ⟨adapter', hconvert', rfl⟩ := h'
  obtain rfl := Except.ok.inj (hconvert.symm.trans hconvert')
  rfl

/-- What a type offers is found, with the adapter type that is made or would be. -/
theorem exists_finds_of_offers (reached : Reached r config s)
    (offers : r.Offers config ty contract op args) :
    ∃ spec a, spec.GoesTo r op args ∧ (r.matchSpec config ty spec).satisfied = true ∧
      Finds r config s ⟨ty, contract⟩ (r.matchSpec config ty spec) a ∧
        a = .synthesize a.id (r.matchSpec config ty spec) := by
  obtain ⟨spec, isPublic, extracted, satisfied, goes⟩ := offers
  have matched : Matches r config ⟨ty, contract⟩ (r.matchSpec config ty spec) :=
    matches_iff.2 ⟨spec, isPublic, extracted, rfl⟩
  rcases finds_or_error reached.keeps ⟨ty, contract⟩ with ⟨result, a, hfinds⟩ | ⟨-, e, herror⟩
  · obtain ⟨hmatch, ha⟩ := matches_of_finds reached.keeps hfinds
    obtain rfl := Except.ok.inj (matched.symm.trans hmatch)
    exact ⟨spec, a, goes, satisfied, hfinds, ha⟩
  · exact absurd (matched.symm.trans herror) (by simp)

/-- What a type offers it satisfies. -/
theorem check_of_offers (reached : Reached r config s)
    (offers : r.Offers config ty contract op args) :
    outcome (check r config ty contract) s = .ok true := by
  obtain ⟨spec, a, -, satisfied, hfinds, -⟩ := exists_finds_of_offers reached offers
  rw [check_of_finds hfinds, satisfied]

/-- Calling an operation that the contract offers runs what the operation is bound to. -/
theorem callIs_of_offers (reached : Reached r config s) (hv : v.runtimeType? = some ty)
    (offers : r.Offers config ty contract op args) (bound : r.resolve config ty op = some b)
    (accepted : List.Forall₂ (fun ty v => r.accepts ty v = true) op.params args) :
    CallIs r config s v contract op args (b.run op.slotName (some v) args) := by
  obtain ⟨spec, a, goes, satisfied, hfinds, ha⟩ := exists_finds_of_offers reached offers
  refine ⟨⟨a, some v⟩, ?_, ?_⟩
  · rw [convert_of_finds hv hfinds, if_pos satisfied]
  · have hpicks := Registry.picks_of_goesTo a.id goes bound accepted
    rw [← ha] at hpicks
    exact hpicks.invoke (some v)

end Provider

end Contracts
