import Contracts.Proofs.StandardContracts

set_option autoImplicit false

/-! # Names stay taken

A declared type keeps its name and its kind, other types come after it, and the name table only
grows; every call is like that (`Registry.Effect.upholds`). So a name that leads to a type leads to
it ever after. The first attempt to have a contract of some name therefore settles what every later
one comes to, be it the contract or an error, and later ones change nothing
(`Registry.contractOrDeclare_settles`, `Registry.Settled.upheld`). -/

namespace Contracts

/-! ## Entering texts in a name table -/

namespace NameTable

variable {table : NameTable} {text other : String}

/-- Entering the text changes nothing. -/
def Holds (table : NameTable) (text : String) : Prop := table.insert text = table

/-- The shard in which a text is looked for. -/
def shard (table : NameTable) (text : String) : Shard := table.shards.get (shardOf text)

theorem shard_eq (table : NameTable) (text : String) :
    table.shard text = getElem table.shards (shardOf text).val (shardOf text).isLt := rfl

theorem get?_eq (table : NameTable) (text : String) :
    table.get? text = ((table.shard text).slotOf text).map (Name.pack (shardOf text)) := rfl

/-- A text that is new is put at the end of its shard, if there is a slot left. -/
theorem insert_eq (table : NameTable) (text : String) : table.insert text =
    if ((table.shard text).slotOf text).isSome ∨ Name.maxSlot < (table.shard text).slots.size then
      table
    else ⟨table.shards.set (shardOf text) ((table.shard text).push text) (shardOf text).isLt⟩ := by
  have hshard : table.shards[shardOf text] = table.shard text := rfl
  unfold insert tryIntern
  simp only [get?_eq, hshard]
  cases hslot : (table.shard text).slotOf text with
  | some slot => simp
  | none =>
      by_cases room : (table.shard text).slots.size ≤ Name.maxSlot
      · simp [room, Nat.not_lt.2 room]
      · simp [room, Nat.lt_of_not_le room]

theorem holds_iff : table.Holds text ↔
    ((table.shard text).slotOf text).isSome ∨ Name.maxSlot < (table.shard text).slots.size := by
  unfold Holds
  rw [insert_eq]
  split
  · exact iff_of_true rfl ‹_›
  · refine iff_of_false (fun h => ?_) ‹_›
    have hshard := congrArg (fun t : NameTable => (t.shard text).slots.size) h
    simp [shard_eq, Shard.push] at hshard

/-- A shard stays as it is or gets the text at its end. -/
theorem shard_insert (table : NameTable) (text other : String) :
    (table.insert text).shard other = table.shard other ∨
      (table.insert text).shard other = (table.shard other).push text := by
  rw [insert_eq]
  split
  · exact Or.inl rfl
  · by_cases hshard : shardOf text = shardOf other
    · refine Or.inr ?_
      simp [shard_eq, hshard]
    · refine Or.inl ?_
      have hne : (shardOf text).val ≠ (shardOf other).val := fun h => hshard (Fin.ext h)
      simp [shard_eq, Vector.getElem_set_ne, hne]

theorem holds_insert (table : NameTable) (text : String) : (table.insert text).Holds text := by
  by_cases h : table.Holds text
  · rw [h]
    exact h
  · rw [holds_iff] at h ⊢
    rw [insert_eq, if_neg h]
    simp [shard_eq, Shard.push]

theorem Holds.insert (h : table.Holds text) (other : String) : (table.insert other).Holds text := by
  rw [holds_iff] at h ⊢
  rcases shard_insert table other text with hshard | hshard <;> rw [hshard]
  · exact h
  · refine h.imp (fun known => ?_) fun full => ?_
    · simp only [Shard.push]
      split
      · rfl
      · exact known
    · rw [Shard.push, Array.size_push]
      exact Nat.lt_succ_of_lt full

theorem Holds.insertMany (h : table.Holds text) (texts : List String) :
    (table.insertMany texts).Holds text := by
  induction texts generalizing table with
  | nil => exact h
  | cons other rest ih => exact ih (h.insert other)

end NameTable

namespace Registry

/-! ## What declarations keep -/

/-- Types keep their positions, names and kinds, there is no type too many, and what the name table
holds it goes on to hold. -/
structure Upholds (r r' : Registry) : Prop where
  types : ∀ idx d, r.type? idx = some d →
    ∃ d', r'.type? idx = some d' ∧ d'.name = d.name ∧ d'.kind = d.kind
  full : UInt32.size ≤ r.types.size → r'.types.size = r.types.size
  names : ∀ text, r.names.Holds text → r'.names.Holds text

/-- A change that keeps names taken, whether it succeeds or not. -/
abbrev Upholding {α : Type} (change : Change α) : Prop := Along id Upholds change

variable {r r' : Registry} {idx : TypeIdx} {name : String}

theorem Upholds.refl (r : Registry) : r.Upholds r :=
  ⟨fun _ d h => ⟨d, h, rfl, rfl⟩, fun _ => rfl, fun _ h => h⟩

theorem Upholds.trans {a b c : Registry} (hab : a.Upholds b) (hbc : b.Upholds c) : a.Upholds c where
  types idx d h := by
    obtain ⟨d', hd', hname', hkind'⟩ := hab.types idx d h
    obtain ⟨d'', hd'', hname'', hkind''⟩ := hbc.types idx d' hd'
    exact ⟨d'', hd'', hname''.trans hname', hkind''.trans hkind'⟩
  full h := (hbc.full (hab.full h ▸ h)).trans (hab.full h)
  names text h := hbc.names text (hab.names text h)

theorem Upholds.of_steps (h : Relation.ReflTransGen Upholds r r') : r.Upholds r' := by
  induction h with
  | refl => exact .refl r
  | tail _ hstep ih => exact ih.trans hstep

theorem Upholding.upholds {α : Type} {change : Change α} (h : Upholding change) (r : Registry) :
    r.Upholds (endState change r) := .of_steps (h r)

/-- A call gives every position its name and kind for good. -/
theorem Effect.upholds {call : Call} {result : Except RegistryError (Option TypeIdx)}
    (effect : r.Effect call result r') : r.Upholds r' where
  types _ _ known := effect.exists_type? (fun d d' => d'.name = d.name ∧ d'.kind = d.kind)
    (fun _ => ⟨rfl, rfl⟩) (fun at_ decl _ _ other =>
      have hextended := TypeDef.extendedBy_addTo other (decl (.named at_))
      ⟨hextended.name, hextended.kind⟩) known
  full full := by
    cases effect with
    | declared _ _ room => exact absurd room (Nat.not_lt.2 full)
    | extended => exact Array.size_modify
    | found | builtinExtended | failed => rfl
  names text held := by
    rw [effect.names]
    exact held.insertMany _

theorem IsCall.upholding {α : Type} {change : Change α} (h : IsCall change) : Upholding change :=
  h.along fun r call => (r.effect call).upholds

end Registry

theorem StandardContract.upholding_declare (c : StandardContract) :
    Registry.Upholding c.declare := c.isCall_declare.upholding

namespace Registry

variable {r r' : Registry} {idx : TypeIdx} {name : String}

/-! ## Where a name leads -/

theorem Upholds.byName? (h : r.Upholds r') (named : r.byName? name = some idx) :
    r'.byName? name = some idx := by
  obtain ⟨⟨d, hd, hname⟩, hbefore⟩ := byName?_eq_some_iff.1 named
  obtain ⟨d', hd', hname', -⟩ := h.types idx d hd
  refine byName?_eq_some_iff.2 ⟨⟨d', hd', hname'.trans hname⟩, fun i hi found hfound => ?_⟩
  -- A type that comes before has been there all along.
  have hlt := (Array.getElem?_eq_some_iff.1 hd).1
  have hold : r.type? ⟨i⟩ = some r.types[i] := Array.getElem?_eq_getElem (Nat.lt_trans hi hlt)
  obtain ⟨found', hfound', hsame, -⟩ := h.types ⟨i⟩ _ hold
  obtain rfl := Option.some.inj (hfound.symm.trans hfound')
  rw [hsame]
  exact hbefore i hi _ hold

/-- If no type can be added, then a new name stays new. -/
theorem Upholds.byName?_eq_none (h : r.Upholds r') (full : UInt32.size ≤ r.types.size)
    (new : r.byName? name = none) : r'.byName? name = none := by
  refine byName?_eq_none_iff.2 fun idx d' hd' => ?_
  have hlt := (Array.getElem?_eq_some_iff.1 hd').1
  rw [h.full full] at hlt
  have hd : r.type? idx = some r.types[idx.index] := Array.getElem?_eq_getElem hlt
  obtain ⟨found, hfound, hname, -⟩ := h.types idx _ hd
  obtain rfl := Option.some.inj (hd'.symm.trans hfound)
  rw [hname]
  exact byName?_eq_none_iff.1 new idx _ hd

/-- A type is called the same as long as it is declared all the time, or not at all. -/
theorem Upholds.typeName (h : r.Upholds r') {ty : TypeRef} (stays : ∀ idx, ty = .named idx →
    (∃ d, r.type? idx = some d) ∨ r'.type? idx = none) : r'.typeName ty = r.typeName ty := by
  cases ty with
  | builtin | param => rfl
  | named idx =>
      cases hd : r.type? idx with
      | some d =>
          obtain ⟨d', hd', hname, -⟩ := h.types idx d hd
          simp only [Registry.typeName, hd, hd', hname]
      | none =>
          have hnone := (stays idx rfl).resolve_left (by simp [hd])
          simp only [Registry.typeName, hd, hnone]

/-! ## What the first attempt settles -/

/-- What asking for the contract of a name comes to, now and ever after: the contract, or an error
because the name is that of something else or because there is no room for another type. -/
inductive Settled (r : Registry) (name : String) : Except RegistryError TypeIdx → Prop
  | contract {idx : TypeIdx} {d : TypeDef} (named : r.byName? name = some idx)
      (known : r.type? idx = some d) (contract : d.isContract = true) : Settled r name (.ok idx)
  | other {idx : TypeIdx} {d : TypeDef} (named : r.byName? name = some idx)
      (known : r.type? idx = some d) (other : d.isContract = false) :
      Settled r name (.error (.wrongKind name TypeKind.contractType.keyword d.kind))
  | full (new : r.byName? name = none) (full : UInt32.size ≤ r.types.size)
      (held : r.names.Holds name) : Settled r name (.error .tooManyTypes)

variable {result : Except RegistryError TypeIdx}

theorem Settled.upheld (settled : r.Settled name result) (h : r.Upholds r') :
    r'.Settled name result := by
  cases settled with
  | contract named known contract =>
      obtain ⟨d', hd', -, hkind⟩ := h.types _ _ known
      refine .contract (h.byName? named) hd' ?_
      rwa [TypeDef.isContract, hkind]
  | other named known other =>
      obtain ⟨d', hd', -, hkind⟩ := h.types _ _ known
      rw [← hkind]
      refine .other (h.byName? named) hd' ?_
      rwa [TypeDef.isContract, hkind]
  | full new full held =>
      exact .full (h.byName?_eq_none full new) (h.full full ▸ full) (h.names name held)

/-- What is settled does not change the registry any more. -/
theorem Settled.run (settled : r.Settled name result) (decl : TypeRef → ContractDecl) :
    contractOrDeclare name decl r = (MonadExcept.ofExcept result : Change TypeIdx) r := by
  cases settled with
  | contract named known contract => exact contractOrDeclare_of_known named known contract decl
  | other named known other =>
      rw [contractOrDeclare_of_named named known, if_neg (by simp [other])]
      rfl
  | full new full held =>
      have hintern : r.intern [name] = r := congrArg (fun t => { r with names := t }) held
      rw [contractOrDeclare_of_new new, defineContract_eq, define_of_new new,
        if_neg (Nat.not_lt.2 full), hintern]
      rfl

/-- A name that is taken is settled. -/
theorem exists_settled_of_byName? (named : r.byName? name = some idx) :
    ∃ result, r.Settled name result := by
  obtain ⟨⟨d, hd, -⟩, -⟩ := byName?_eq_some_iff.1 named
  cases hcontract : d.isContract with
  | true => exact ⟨_, .contract named hd hcontract⟩
  | false => exact ⟨_, .other named hd hcontract⟩

/-- Whatever asking for the contract of a name comes to, it is settled by that. -/
theorem contractOrDeclare_settles (name : String) (decl : TypeRef → ContractDecl) (r : Registry) :
    (endState (contractOrDeclare name decl) r).Settled name
      (outcome (contractOrDeclare name decl) r) := by
  cases hname : r.byName? name with
  | none =>
      have hdefines := (contractOrDeclare_of_new hname decl).trans
        ((congrFun (defineContract_eq name decl) r).trans (define_of_new hname _ _ _))
      rw [endState, outcome, hdefines]
      by_cases room : r.types.size < UInt32.size
      · rw [if_pos room]
        refine .contract ((byName?_of_push hname rfl name).trans (if_pos rfl))
          Array.getElem?_push_size rfl
      · rw [if_neg room]
        exact .full hname (Nat.le_of_not_lt room) (NameTable.holds_insert r.names name)
  | some idx =>
      obtain ⟨result, settled⟩ := exists_settled_of_byName? hname
      rw [endState, outcome, settled.run decl]
      cases result <;> exact settled

end Registry

end Contracts
