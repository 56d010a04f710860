import Contracts.Proofs.NameKeeping
import Mathlib.Data.List.Nodup

set_option autoImplicit false

/-! # What becomes of declarations

Types are declared and extended in any order, and some of it fails. From what one call can do
(`Registry.Effect`) follows what a run of calls comes to. The types are those that were declared, in
that order and under different names (`Registry.Lists`); they stay what they are and get members
only after those that they have (`Registry.Continues`); and a call that fails changes none of it.
Main statement: `Registry.stable_run`. -/

namespace Contracts

/-! ## Growing at the end -/

/-- The members of each sort come first among those of the other, in the same order. -/
structure Members.IsPrefix (ms ms' : Members) : Prop where
  methods : ms.methods <+: ms'.methods
  operators : ms.operators <+: ms'.operators
  conversions : ms.conversions <+: ms'.conversions
  properties : ms.properties <+: ms'.properties

/-- A type is still the one it was: a contract just as it was, a class or struct perhaps with more
members. -/
structure TypeDef.Continues (d d' : TypeDef) : Prop where
  name : d'.name = d.name
  kind : d'.kind = d.kind
  members : d.members.IsPrefix d'.members
  contract : d.isContract = true → d' = d

/-- Types stay at their positions, and built-in types keep their members. -/
structure Registry.Continues (r r' : Registry) : Prop where
  types : ∀ idx d, r.type? idx = some d → ∃ d', r'.type? idx = some d' ∧ d.Continues d'
  builtins : ∀ b ms, r.builtinMembers b = some ms →
    ∃ ms', r'.builtinMembers b = some ms' ∧ ms.IsPrefix ms'

theorem Members.IsPrefix.refl (ms : Members) : ms.IsPrefix ms :=
  ⟨List.prefix_rfl, List.prefix_rfl, List.prefix_rfl, List.prefix_rfl⟩

theorem Members.IsPrefix.trans {a b c : Members} (hab : a.IsPrefix b) (hbc : b.IsPrefix c) :
    a.IsPrefix c where
  methods := hab.methods.trans hbc.methods
  operators := hab.operators.trans hbc.operators
  conversions := hab.conversions.trans hbc.conversions
  properties := hab.properties.trans hbc.properties

theorem Members.Appends.isPrefix {ms more ms' : Members} (h : ms.Appends more ms') :
    ms.IsPrefix ms' where
  methods := h.methods ▸ List.prefix_append _ _
  operators := h.operators ▸ List.prefix_append _ _
  conversions := h.conversions ▸ List.prefix_append _ _
  properties := h.properties ▸ List.prefix_append _ _

theorem TypeDef.Continues.refl (d : TypeDef) : d.Continues d := ⟨rfl, rfl, .refl _, fun _ => rfl⟩

theorem TypeDef.Continues.trans {a b c : TypeDef} (hab : a.Continues b) (hbc : b.Continues c) :
    a.Continues c where
  name := hbc.name.trans hab.name
  kind := hbc.kind.trans hab.kind
  members := hab.members.trans hbc.members
  contract h := by
    obtain rfl := hab.contract h
    exact hbc.contract h

/-- A class or struct that is extended is still the one it was. -/
theorem TypeDef.ExtendedBy.continues {d d' : TypeDef} {decl : Registry.ImplementationDecl}
    (h : d.ExtendedBy decl d') (other : d.isContract = false) : d.Continues d' :=
  ⟨h.name, h.kind, h.members.isPrefix, fun contract => absurd (contract.symm.trans other) nofun⟩

namespace Registry

variable {r r' : Registry} {idx : TypeIdx} {name : String} {d : TypeDef}

theorem Continues.refl (r : Registry) : r.Continues r :=
  ⟨fun _ d h => ⟨d, h, .refl d⟩, fun _ ms h => ⟨ms, h, .refl ms⟩⟩

theorem Continues.trans {a b c : Registry} (hab : a.Continues b) (hbc : b.Continues c) :
    a.Continues c where
  types idx d h := by
    obtain ⟨d', hd', hfirst⟩ := hab.types idx d h
    obtain ⟨d'', hd'', hsecond⟩ := hbc.types idx d' hd'
    exact ⟨d'', hd'', hfirst.trans hsecond⟩
  builtins b ms h := by
    obtain ⟨ms', hms', hfirst⟩ := hab.builtins b ms h
    obtain ⟨ms'', hms'', hsecond⟩ := hbc.builtins b ms' hms'
    exact ⟨ms'', hms'', hfirst.trans hsecond⟩

/-! ## Runs of calls -/

/-- The registry after some calls, one after the other. -/
def run (r : Registry) (calls : List Call) : Registry := calls.foldl after r

/-- What is declared after a call, going by what the call answers: a contract that is asked for is
only new if there is none of its name. -/
def Call.record (call : Call) (declared : List (String × TypeKind)) :
    Except RegistryError (Option TypeIdx) → List (String × TypeKind)
  | .error _ => declared
  | .ok _ =>
      match call with
      | .defineType _ _ _ | .defineContract _ _ => declared ++ call.declaration?.toList
      | .contractOrDeclare name _ =>
          if name ∈ declared.map Prod.fst then declared else declared ++ call.declaration?.toList
      | .extendType _ _ | .extendBuiltin _ _ => declared

/-- What is declared after some calls. -/
def history (r : Registry) (declared : List (String × TypeKind)) :
    List Call → List (String × TypeKind)
  | [] => declared
  | call :: rest => (r.after call).history (call.record declared (r.answer call)) rest

variable {call : Call}

/-! ## When calls fail -/

/-- A call that has a reason to fail does so. -/
theorem Effect.of_refuses {result : Except RegistryError (Option TypeIdx)} {e : RegistryError}
    (effect : r.Effect call result r') (refused : r.Refuses call e) : result = .error e := by
  -- Where the call succeeds, no reason agrees with what the effect says of the registry; where it
  -- fails, the two reasons are the same.
  cases effect with
  | declared defines new room =>
      have asked := Call.declaration?_of_definition? defines
      cases refused <;> grind [Call.declaration?]
  | found named known contract =>
      cases refused <;> grind [Call.declaration?]
  | extended known other =>
      cases refused <;> grind [Call.declaration?]
  | builtinExtended =>
      cases refused with
      | noRoom asked => cases asked
  | failed refused' =>
      cases refused <;> cases refused' <;> grind [Call.declaration?]

/-- **When calls fail.** A call fails if and only if there is a reason for it to. -/
theorem answer_eq_error_iff {e : RegistryError} : r.answer call = .error e ↔ r.Refuses call e := by
  have heffect := r.effect call
  refine ⟨fun h => ?_, heffect.of_refuses⟩
  rw [h] at heffect
  exact heffect.refuses

/-! ## What a call keeps, and what a run keeps -/

theorem Effect.continues {result : Except RegistryError (Option TypeIdx)}
    (effect : r.Effect call result r') : r.Continues r' where
  types _ _ known := effect.exists_type? TypeDef.Continues .refl
    (fun _ _ _ _ other => (TypeDef.extendedBy_addTo other _).continues other) known
  builtins c ms known := by
    cases effect with
    | declared | found | extended | failed => exact ⟨ms, known, .refl ms⟩
    | builtinExtended b decl =>
        by_cases same : c = b
        · subst same
          obtain ⟨ms', hms', happends⟩ := appends_extendBuiltin r c decl
          rw [known] at happends
          exact ⟨ms', hms', happends.isPrefix⟩
        · exact ⟨ms, (if_neg same).trans known, .refl ms⟩

theorem continues_run (calls : List Call) : r.Continues (r.run calls) := by
  induction calls generalizing r with
  | nil => exact .refl r
  | cons call rest ih => exact (r.effect call).continues.trans ih

/-! ## What is declared -/

/-- The types of a registry, by name and kind, in the order of their declaration. -/
structure Lists (r : Registry) (declared : List (String × TypeKind)) : Prop where
  types : (r.types.toList.map fun d => (d.name, d.kind)) = declared
  distinct : (declared.map Prod.fst).Nodup

variable {declared : List (String × TypeKind)}

namespace Lists

theorem getElem? (h : r.Lists declared) (i : Nat) :
    declared[i]? = (r.type? ⟨i⟩).map fun d => (d.name, d.kind) := by
  rw [← h.types, List.getElem?_map, Array.getElem?_toList]
  rfl

theorem getElem?_names (h : r.Lists declared) (i : Nat) :
    (declared.map Prod.fst)[i]? = (r.type? ⟨i⟩).map (·.name) := by
  rw [List.getElem?_map, h.getElem?, Option.map_map]
  rfl

/-- A name leads to the type that has it. -/
theorem byName?_iff (h : r.Lists declared) :
    r.byName? name = some idx ↔ (declared.map Prod.fst)[idx.index]? = some name := by
  rw [byName?_eq_some_iff, h.getElem?_names, Option.map_eq_some_iff]
  refine ⟨And.left, fun hidx => ⟨hidx, fun i hi d hd hname => Nat.ne_of_lt hi ?_⟩⟩
  have hfirst : (declared.map Prod.fst)[i]? = some name := by
    rw [h.getElem?_names, hd, ← hname]
    rfl
  have hsecond : (declared.map Prod.fst)[idx.index]? = some name := by
    rw [h.getElem?_names]
    exact Option.map_eq_some_iff.2 hidx
  exact (List.getElem?_inj (List.getElem?_eq_some_iff.1 hfirst).1 h.distinct).1
    (hfirst.trans hsecond.symm)

theorem byName?_eq_none_iff (h : r.Lists declared) :
    r.byName? name = none ↔ name ∉ declared.map Prod.fst := by
  rw [Option.eq_none_iff_forall_ne_some, List.mem_iff_getElem?, not_exists]
  exact ⟨fun hnone i hi => hnone ⟨i⟩ (h.byName?_iff.2 hi),
    fun hnone idx hidx => hnone idx.index (h.byName?_iff.1 hidx)⟩

theorem congr (h : r.Lists declared)
    (same : ∀ idx, ((r'.type? idx).map fun d => (d.name, d.kind)) =
      (r.type? idx).map fun d => (d.name, d.kind)) : r'.Lists declared where
  types := by
    refine List.ext_getElem? fun i => ?_
    rw [h.getElem?, List.getElem?_map, Array.getElem?_toList]
    exact same ⟨i⟩
  distinct := h.distinct

theorem push (h : r.Lists declared) (new : d.name ∉ declared.map Prod.fst)
    (types : r'.types = r.types.push d) : r'.Lists (declared ++ [(d.name, d.kind)]) where
  types := by
    rw [types, Array.toList_push, List.map_append, h.types]
    rfl
  distinct := by
    rw [List.map_append, List.map_singleton, ← List.concat_eq_append]
    exact List.Nodup.concat new h.distinct

end Lists

/-- What is newly declared comes last. -/
theorem Call.record_of_new {kind : TypeKind} (asked : call.declaration? = some (name, kind))
    (new : name ∉ declared.map Prod.fst) (answer : Option TypeIdx) :
    call.record declared (.ok answer) = declared ++ [(name, kind)] := by
  cases call with
  | defineType | defineContract =>
      rw [← Option.toList_some, ← asked]
      rfl
  | contractOrDeclare other decl =>
      obtain ⟨rfl, rfl⟩ := Prod.mk.inj (Option.some.inj asked)
      exact if_neg new
  | extendType | extendBuiltin => exact nomatch asked

theorem Effect.lists {result : Except RegistryError (Option TypeIdx)}
    (effect : r.Effect call result r') (h : r.Lists declared) :
    r'.Lists (call.record declared result) := by
  cases effect with
  | declared defines new =>
      have hnew := h.byName?_eq_none_iff.1 new
      rw [Call.record_of_new (Call.declaration?_of_definition? defines) hnew]
      exact h.push hnew rfl
  | found named =>
      have hknown := List.mem_of_getElem? (h.byName?_iff.1 named)
      rw [Call.record, if_pos hknown]
      exact h
  | @extended idx decl d known other =>
      have hextended := TypeDef.extendedBy_addTo other (decl (.named idx))
      exact h.congr (map_type?_modify known (Prod.ext hextended.name hextended.kind) _)
  | builtinExtended | failed => exact h.congr fun _ => rfl

theorem Lists.run (h : r.Lists declared) (calls : List Call) :
    (r.run calls).Lists (r.history declared calls) := by
  induction calls generalizing r declared with
  | nil => exact h
  | cons call rest ih => exact ih ((r.effect call).lists h)

theorem lists_of_types_eq_empty (fresh : r.types = #[]) : r.Lists [] where
  types := by rw [fresh]; rfl
  distinct := List.nodup_nil

/-- A name that a call asks for leads to the place that it answers. -/
theorem Effect.type?_of_ok {kind : TypeKind} (effect : r.Effect call (.ok (some idx)) r')
    (asked : call.declaration? = some (name, kind)) :
    ∃ d, r'.type? idx = some d ∧ d.name = name ∧ d.kind = kind := by
  cases effect with
  | @declared _ d defines =>
      have hdeclares := (Call.declaration?_of_definition? defines).symm.trans asked
      obtain ⟨rfl, rfl⟩ := Prod.mk.inj (Option.some.inj hdeclares)
      exact ⟨d, Array.getElem?_push_size, rfl, rfl⟩
  | @found _ _ _ d named known contract =>
      obtain ⟨rfl, rfl⟩ := Prod.mk.inj (Option.some.inj asked)
      obtain ⟨⟨found, hfound, hname⟩, -⟩ := byName?_eq_some_iff.1 named
      obtain rfl := Option.some.inj (known.symm.trans hfound)
      exact ⟨d, known, hname, of_decide_eq_true contract⟩

/-! ## Any sequence of calls -/

/-- **What becomes of declarations.** A registry starts without types, and any calls are made. Then
its types are those that the calls have declared, in this order and under different names; a name
leads to the place at which it was declared, and one that was not declared leads nowhere. Whatever
is called next, each type keeps its place, its name and its kind, all members stay where they are,
and contracts stay just as they are; the place that a declaration answers is of a type of that name
and kind, and the name leads there ever after. What an extension declares comes after all that the
type had. A call fails exactly if there is a reason for it to, and then the types, the places of
names and the members of built-in types are as before. -/
theorem stable_run {r₀ : Registry} (fresh : r₀.types = #[]) (past : List Call) :
    let r := r₀.run past
    let declared := r₀.history [] past
    let names := declared.map Prod.fst
    (r.types.toList.map fun d => (d.name, d.kind)) = declared ∧ names.Nodup ∧
      (∀ name i, r.byName? name = some ⟨i⟩ ↔ names[i]? = some name) ∧
      (∀ name, r.byName? name = none ↔ name ∉ names) ∧
      (∀ future, r.Continues (r.run future)) ∧
      (∀ call name kind idx, call.declaration? = some (name, kind) →
        r.answer call = .ok (some idx) → ∀ future, let later := (r.after call).run future
          later.byName? name = some idx ∧
            ∃ d, later.type? idx = some d ∧ d.name = name ∧ d.kind = kind) ∧
      (∀ idx decl, r.answer (.extendType idx decl) = .ok none → ∃ d d', r.type? idx = some d ∧
        (r.after (.extendType idx decl)).type? idx = some d' ∧
          d.ExtendedBy (decl (.named idx)) d') ∧
      (∀ b decl, ∃ ms, (r.after (.extendBuiltin b decl)).builtinMembers b = some ms ∧
        ((r.builtinMembers b).getD {}).Appends (decl (.builtin b)).members ms) ∧
      ∀ call e, (r.answer call = .error e ↔ r.Refuses call e) ∧
        (r.answer call = .error e → (r.after call).types = r.types ∧
          (∀ name, (r.after call).byName? name = r.byName? name) ∧
          (r.after call).builtinMembers = r.builtinMembers) := by
  intro r declared names
  have hlists : r.Lists declared := (lists_of_types_eq_empty fresh).run past
  refine ⟨hlists.types, hlists.distinct, fun _ _ => hlists.byName?_iff,
    fun _ => hlists.byName?_eq_none_iff, fun future => continues_run future,
    fun call name kind idx asked hok future => ?_, fun idx decl hok => extended_of_answer hok,
    fun b decl => appends_extendBuiltin r b decl, fun call e => ⟨answer_eq_error_iff, ?_⟩⟩
  · have heffect := r.effect call
    have hlater := (heffect.lists hlists).run future
    rw [hok] at heffect
    obtain ⟨d, hd, rfl, rfl⟩ := heffect.type?_of_ok asked
    obtain ⟨d', hd', hcontinues⟩ := (continues_run future).types idx d hd
    refine ⟨hlater.byName?_iff.2 ?_, d', hd', hcontinues.name, hcontinues.kind⟩
    rw [hlater.getElem?_names, hd', Option.map_some, hcontinues.name]
  · intro herror
    have heffect := r.effect call
    rw [herror] at heffect
    rw [heffect.eq_intern]
    exact ⟨rfl, fun _ => rfl, rfl⟩

/-- A class is declared, a struct of its name is not, and a contract is declared. Asked for again,
the contract is found where it is, also after the class has been extended. The class itself gets
what the extension declares. Other calls fail for their several reasons and change nothing. -/
theorem stable_run_box :
    let wide : TypeRef → ImplementationDecl := fun _ =>
      { members := { properties := [.ofField "width" (.builtin (.int .i32))] } }
    let sized : Call := .contractOrDeclare "Sized" fun _ => {}
    let past : List Call := [.defineType false "Box" wide, .defineType true "Box" wide, sized]
    let r := empty.run past
    let failing : List (Call × RegistryError) :=
      [(.defineContract "Box" fun _ => {}, .duplicateType "Box"),
        (.contractOrDeclare "Box" fun _ => {}, .wrongKind "Box" "contract" .classType),
        (.extendType ⟨1⟩ wide, .wrongKind "Sized" "class or struct" .contractType),
        (.extendType ⟨2⟩ wide, .unknownType ⟨2⟩)]
    r.types.toList.map (fun d => (d.name, d.kind)) =
        [("Box", .classType), ("Sized", .contractType)] ∧
      r.byName? "Crate" = none ∧
      ((r.after sized).run [.extendType ⟨0⟩ wide]).byName? "Sized" = some ⟨1⟩ ∧
      (∃ d d', r.type? ⟨0⟩ = some d ∧ (r.after (.extendType ⟨0⟩ wide)).type? ⟨0⟩ = some d' ∧
        d.ExtendedBy (wide (.named ⟨0⟩)) d') ∧
      ∀ failure ∈ failing,
        r.answer failure.1 = .error failure.2 ∧ (r.after failure.1).types = r.types := by
  intro wide sized past r failing
  have hhistory : empty.history [] past = [("Box", .classType), ("Sized", .contractType)] := by
    decide +kernel
  have hfailing : ∀ failure ∈ failing, r.answer failure.1 = .error failure.2 := by
    decide +kernel
  obtain ⟨htypes, -, -, hunknown, -, hleads, hextends, -, hfails⟩ :=
    stable_run (show empty.types = #[] from rfl) past
  refine ⟨htypes.trans hhistory, (hunknown _).2 (by rw [hhistory]; decide),
    (hleads sized _ _ ⟨1⟩ rfl (by decide +kernel) [.extendType ⟨0⟩ wide]).1,
    hextends ⟨0⟩ wide (by decide +kernel), fun failure h => ?_⟩
  have herror := hfailing failure h
  exact ⟨herror, ((hfails _ _).2 herror).1⟩

end Registry

end Contracts
