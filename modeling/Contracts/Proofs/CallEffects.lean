import Contracts.Proofs.Computation
import Contracts.Registry.Call

set_option autoImplicit false

/-! # What a call does to a registry

`Registry.Effect` lists all that one call can do: put a type after all others, find a contract that
is there, put more into a class or struct, give a built-in type more members, or fail for one of the
reasons that there are (`Registry.Refuses`) and leave the types alone. There is nothing else
(`Registry.effect`), so what calls keep, and what they add, is read off these cases. -/

namespace Contracts

/-! ## Extended types -/

/-- Each list of members is continued by the further ones of that sort. -/
structure Members.Appends (ms more ms' : Members) : Prop where
  methods : ms'.methods = ms.methods ++ more.methods
  operators : ms'.operators = ms.operators ++ more.operators
  conversions : ms'.conversions = ms.conversions ++ more.conversions
  properties : ms'.properties = ms.properties ++ more.properties

theorem Members.appends_append (ms more : Members) : ms.Appends more (ms ++ more) :=
  ⟨rfl, rfl, rfl, rfl⟩

/-- A class or struct after an extension: what is declared comes after what it had, the base is
replaced if one is declared, and the type may become hidden but not public. -/
structure TypeDef.ExtendedBy (d : TypeDef) (decl : Registry.ImplementationDecl) (d' : TypeDef) :
    Prop where
  name : d'.name = d.name
  kind : d'.kind = d.kind
  isPublic : d'.isPublic = (d.isPublic && !decl.isHidden)
  base : d'.base? = (decl.base <|> d.base?)
  implements : d'.implements = d.implements ++ decl.implements
  members : d.members.Appends decl.members d'.members

theorem TypeDef.isContract_eq_false_iff {d : TypeDef} :
    d.isContract = false ↔ ∃ isStruct impl, d.body = .implementation isStruct impl := by
  obtain ⟨name, isPublic, body⟩ := d
  cases body with
  | implementation isStruct impl => cases isStruct <;> simp [isContract, kind]
  | contract req => simp [isContract, kind]

theorem TypeDef.extendedBy_addTo {d : TypeDef} (other : d.isContract = false)
    (decl : Registry.ImplementationDecl) : d.ExtendedBy decl (decl.addTo d) := by
  obtain ⟨name, isPublic, body⟩ := d
  obtain ⟨isStruct, impl, rfl⟩ := isContract_eq_false_iff.1 other
  exact ⟨rfl, rfl, rfl, rfl, rfl, Members.appends_append _ _⟩

theorem TypeDef.ExtendedBy.isContract {d d' : TypeDef} {decl : Registry.ImplementationDecl}
    (h : d.ExtendedBy decl d') : d'.isContract = d.isContract := by
  rw [TypeDef.isContract, h.kind, TypeDef.isContract]

namespace Registry

variable {r r' : Registry} {idx : TypeIdx} {name : String} {d : TypeDef}

/-! ## Positions and names -/

/-- Types stay where they are when another one is put after them. -/
theorem type?_of_push {found : TypeDef} (types : r'.types = r.types.push d)
    (known : r.type? idx = some found) : r'.type? idx = some found := by
  have hlt := (Array.getElem?_eq_some_iff.1 known).1
  rwa [type?, types, Array.getElem?_push_lt hlt, ← Array.getElem?_eq_getElem hlt]

/-- Changing one type leaves all others where they are. -/
theorem type?_modify (known : r.type? idx = some d) (f : TypeDef → TypeDef) (names : List String)
    (other : TypeIdx) :
    ({ r.intern names with types := r.types.modify idx.index f } : Registry).type? other =
      if other = idx then some (f d) else r.type? other := by
  simp only [type?, Array.getElem?_modify] at known ⊢
  by_cases same : other = idx
  · subst same
    rw [if_pos rfl, if_pos rfl, known]
    rfl
  · have hne : idx.index ≠ other.index := fun h => same (congrArg TypeIdx.mk h).symm
    rw [if_neg hne, if_neg same]

/-- What the change of one type keeps of it is kept of all types. -/
theorem map_type?_modify {α : Type} {g : TypeDef → α} {f : TypeDef → TypeDef}
    (known : r.type? idx = some d) (keeps : g (f d) = g d) (names : List String)
    (other : TypeIdx) :
    (({ r.intern names with types := r.types.modify idx.index f } : Registry).type? other).map g =
      (r.type? other).map g := by
  rw [type?_modify known]
  split
  · rename_i same
    rw [same, known, Option.map_some, Option.map_some, keeps]
  · rfl

theorem byName?_eq_none_iff :
    r.byName? name = none ↔ ∀ idx d, r.type? idx = some d → d.name ≠ name := by
  simp only [byName?, Option.map_eq_none_iff, Array.findIdx?_eq_none_iff, beq_eq_false_iff_ne,
    Array.mem_iff_getElem?, type?]
  refine ⟨fun h idx d hd => h d ⟨idx.index, hd⟩, fun h d => ?_⟩
  rintro ⟨i, hi⟩
  exact h ⟨i⟩ d hi

/-- A name leads to the first type that has it. -/
theorem byName?_eq_some_iff : r.byName? name = some idx ↔
    (∃ d, r.type? idx = some d ∧ d.name = name) ∧
      ∀ i < idx.index, ∀ d, r.type? ⟨i⟩ = some d → d.name ≠ name := by
  simp only [byName?, Option.map_eq_some_iff, Array.findIdx?_eq_some_iff_getElem, beq_iff_eq, type?,
    Array.getElem?_eq_some_iff]
  constructor
  · rintro ⟨i, ⟨hlt, hname, hbefore⟩, rfl⟩
    exact ⟨⟨_, ⟨hlt, rfl⟩, hname⟩, by grind⟩
  · rintro ⟨⟨d, ⟨hlt, rfl⟩, hname⟩, hbefore⟩
    exact ⟨idx.index, ⟨hlt, hname, by grind⟩, rfl⟩

/-- Where names lead depends on the names of the types only. -/
theorem byName?_congr (same : ∀ idx, (r'.type? idx).map (·.name) = (r.type? idx).map (·.name))
    (name : String) : r'.byName? name = r.byName? name := by
  have hsearch : ∀ r : Registry,
      r.byName? name = ((r.types.map (·.name)).findIdx? (· == name)).map TypeIdx.mk := by
    intro r
    rw [byName?, Array.findIdx?_map]
    rfl
  have hnames : r'.types.map (·.name) = r.types.map (·.name) := by
    refine Array.ext_getElem? fun i => ?_
    rw [Array.getElem?_map, Array.getElem?_map]
    exact same ⟨i⟩
  rw [hsearch, hsearch, hnames]

/-- A type of a new name is found under it, and every other name leads where it did. -/
theorem byName?_of_push (new : r.byName? d.name = none) (types : r'.types = r.types.push d)
    (name : String) :
    r'.byName? name = if name = d.name then some ⟨r.types.size⟩ else r.byName? name := by
  rw [byName?, byName?, types, Array.findIdx?_push]
  by_cases same : name = d.name
  · subst same
    rw [byName?, Option.map_eq_none_iff] at new
    simp [new]
  · simp [same, Ne.symm same]

/-! ## Declaring a type -/

/-- A type of which nothing has been said becomes just what is declared. -/
theorem addTo_blank (isStruct : Bool) (name : String) (decl : ImplementationDecl) :
    decl.addTo ⟨name, true, .implementation isStruct {}⟩ =
      ⟨name, !decl.isHidden, .implementation isStruct decl.toImplementation⟩ := by
  obtain ⟨⟨base, implements, members⟩, isHidden⟩ := decl
  cases base <;> rfl

/-- A name that is taken is not given to another type; it is entered all the same. -/
theorem reserve_of_named (named : r.byName? name = some idx) (body : TypeBody) :
    reserve name body r = .error (.duplicateType name) (r.intern [name]) := by
  have htaken : ((r.intern [name]).byName? name).isSome = true := by
    rw [show (r.intern [name]).byName? name = some idx from named]
    rfl
  have hget : (modify (·.intern [name]) >>= fun _ => get : Change Registry) r =
      .ok (r.intern [name]) (r.intern [name]) := rfl
  rw [reserve, ← bind_assoc, bind_of_ok hget, if_pos htaken]
  rfl

/-- A new name gets the next position, if there is one. -/
theorem reserve_of_new (new : r.byName? name = none) (body : TypeBody) :
    reserve name body r =
      if r.types.size < UInt32.size then
        .ok ⟨r.types.size⟩ { r.intern [name] with types := r.types.push ⟨name, true, body⟩ }
      else .error .tooManyTypes (r.intern [name]) := by
  have hnew : ¬((r.intern [name]).byName? name).isSome = true := by
    rw [show (r.intern [name]).byName? name = none from new]
    simp
  have hget : (modify (·.intern [name]) >>= fun _ => get : Change Registry) r =
      .ok (r.intern [name]) (r.intern [name]) := rfl
  rw [reserve, ← bind_assoc, bind_of_ok hget, if_neg hnew]
  split
  · exact (if_pos ‹_›).symm
  · exact (if_neg ‹_›).symm

/-- The one way in which types are declared, for classes, structs and contracts alike. -/
def define (name : String) (body : TypeBody) (mentions : TypeIdx → List String)
    (complete : TypeIdx → TypeDef → TypeDef) : Change TypeIdx := do
  let idx ← reserve name body
  modify (·.intern (mentions idx))
  alter idx (complete idx)
  pure idx

theorem defineType_eq (isStruct : Bool) (name : String) (decl : TypeRef → ImplementationDecl) :
    defineType isStruct name decl = define name (.implementation isStruct {})
      (fun idx => (decl (.named idx)).members.names) fun idx => (decl (.named idx)).addTo := rfl

theorem defineContract_eq (name : String) (decl : TypeRef → ContractDecl) :
    defineContract name decl = define name (.contract {})
      (fun idx => (decl (.named idx)).operations.flatMap (·.names))
      fun idx => (decl (.named idx)).setIn := rfl

theorem modify_push_size (types : Array TypeDef) (d : TypeDef) (f : TypeDef → TypeDef) :
    (types.push d).modify types.size f = types.push (f d) := by
  refine Array.ext_getElem? fun i => ?_
  rw [Array.getElem?_modify, Array.getElem?_push, Array.getElem?_push]
  by_cases hlast : types.size = i
  · simp [hlast]
  · simp [hlast, Ne.symm hlast]

/-- The type that has been put at the next position is completed there. -/
theorem define_of_new (new : r.byName? name = none) (body : TypeBody)
    (mentions : TypeIdx → List String) (complete : TypeIdx → TypeDef → TypeDef) :
    define name body mentions complete r =
      if r.types.size < UInt32.size then
        .ok ⟨r.types.size⟩ { r.intern (name :: mentions ⟨r.types.size⟩) with
          types := r.types.push (complete ⟨r.types.size⟩ ⟨name, true, body⟩) }
      else .error .tooManyTypes (r.intern [name]) := by
  have hreserve := reserve_of_new new body
  by_cases room : r.types.size < UInt32.size
  · rw [if_pos room] at hreserve ⊢
    rw [define, bind_of_ok hreserve, ← modify_push_size]
    rfl
  · rw [if_neg room] at hreserve ⊢
    exact bind_of_error hreserve

theorem contractOrDeclare_of_new (new : r.byName? name = none) (decl : TypeRef → ContractDecl) :
    contractOrDeclare name decl r = defineContract name decl r := by
  have hget : (get : Change Registry) r = .ok r r := rfl
  rw [contractOrDeclare, bind_of_ok hget, new]

/-- A type of the name is the answer if it is a contract, and an error if not. -/
theorem contractOrDeclare_of_named (named : r.byName? name = some idx)
    (known : r.type? idx = some d) (decl : TypeRef → ContractDecl) :
    contractOrDeclare name decl r =
      if d.isContract then .ok idx r
      else .error (.wrongKind name TypeKind.contractType.keyword d.kind) r := by
  have hget : (get : Change Registry) r = .ok r r := rfl
  rw [contractOrDeclare, bind_of_ok hget, named]
  dsimp only
  rw [known]
  dsimp only
  split <;> rfl

theorem contractOrDeclare_of_known (named : r.byName? name = some idx)
    (known : r.type? idx = some d) (contract : d.isContract = true)
    (decl : TypeRef → ContractDecl) : contractOrDeclare name decl r = .ok idx r := by
  rw [contractOrDeclare_of_named named known, if_pos contract]

/-- A class or struct is extended where it is. -/
theorem extendType_of_known (known : r.type? idx = some d) (decl : TypeRef → ImplementationDecl) :
    extendType idx decl r =
      if d.isContract then .error (.wrongKind d.name "class or struct" d.kind) r
      else .ok () { r.intern (decl (.named idx)).members.names with
        types := r.types.modify idx.index (decl (.named idx)).addTo } := by
  have hget : (get : Change Registry) r = .ok r r := rfl
  rw [extendType, bind_of_ok hget, known]
  dsimp only
  split <;> rfl

theorem extendType_of_unknown (unknown : r.type? idx = none)
    (decl : TypeRef → ImplementationDecl) :
    extendType idx decl r = .error (.unknownType idx) r := by
  have hget : (get : Change Registry) r = .ok r r := rfl
  rw [extendType, bind_of_ok hget, unknown]
  rfl

/-! ## What a call can do -/

/-- What a call answers. -/
def answer (r : Registry) (call : Call) : Except RegistryError (Option TypeIdx) :=
  outcome call.run r

/-- The registry after a call, whether that succeeds or not. -/
def after (r : Registry) (call : Call) : Registry := endState call.run r

/-- The type that a call declares at a position, if it declares one. -/
def Call.definition? (self : TypeIdx) : Call → Option TypeDef
  | .defineType isStruct name decl =>
      some ⟨name, !(decl (.named self)).isHidden,
        .implementation isStruct (decl (.named self)).toImplementation⟩
  | .defineContract name decl | .contractOrDeclare name decl =>
      some ⟨name, !(decl (.named self)).isHidden, .contract (decl (.named self)).toRequirements⟩
  | .extendType _ _ | .extendBuiltin _ _ => none

/-- Why a call fails. -/
inductive Refuses (r : Registry) : Call → RegistryError → Prop
  | typeTaken {isStruct : Bool} {name : String} {decl : TypeRef → ImplementationDecl}
      {idx : TypeIdx} (named : r.byName? name = some idx) :
      Refuses r (.defineType isStruct name decl) (.duplicateType name)
  | contractTaken {name : String} {decl : TypeRef → ContractDecl} {idx : TypeIdx}
      (named : r.byName? name = some idx) :
      Refuses r (.defineContract name decl) (.duplicateType name)
  | noRoom {call : Call} {name : String} {kind : TypeKind}
      (asked : call.declaration? = some (name, kind)) (new : r.byName? name = none)
      (full : UInt32.size ≤ r.types.size) : Refuses r call .tooManyTypes
  | notContract {name : String} {decl : TypeRef → ContractDecl} {idx : TypeIdx} {d : TypeDef}
      (named : r.byName? name = some idx) (known : r.type? idx = some d)
      (other : d.isContract = false) : Refuses r (.contractOrDeclare name decl)
        (.wrongKind name TypeKind.contractType.keyword d.kind)
  | notDeclared {idx : TypeIdx} {decl : TypeRef → ImplementationDecl}
      (unknown : r.type? idx = none) : Refuses r (.extendType idx decl) (.unknownType idx)
  | contract {idx : TypeIdx} {decl : TypeRef → ImplementationDecl} {d : TypeDef}
      (known : r.type? idx = some d) (contract : d.isContract = true) :
      Refuses r (.extendType idx decl) (.wrongKind d.name "class or struct" d.kind)

/-- Everything that a call can do: its answer, and the registry after it. -/
inductive Effect (r : Registry) : Call → Except RegistryError (Option TypeIdx) → Registry → Prop
  | declared {call : Call} {d : TypeDef} (defines : call.definition? ⟨r.types.size⟩ = some d)
      (new : r.byName? d.name = none) (room : r.types.size < UInt32.size) :
      Effect r call (.ok (some ⟨r.types.size⟩))
        { r.intern (call.enters r) with types := r.types.push d }
  | found {name : String} {decl : TypeRef → ContractDecl} {idx : TypeIdx} {d : TypeDef}
      (named : r.byName? name = some idx) (known : r.type? idx = some d)
      (contract : d.isContract = true) :
      Effect r (.contractOrDeclare name decl) (.ok (some idx)) r
  | extended {idx : TypeIdx} {decl : TypeRef → ImplementationDecl} {d : TypeDef}
      (known : r.type? idx = some d) (other : d.isContract = false) :
      Effect r (.extendType idx decl) (.ok none)
        { r.intern (decl (.named idx)).members.names with
          types := r.types.modify idx.index (decl (.named idx)).addTo }
  | builtinExtended (b : Builtin) (decl : TypeRef → ImplementationDecl) :
      Effect r (.extendBuiltin b decl) (.ok none) (r.extendBuiltin b decl)
  | failed {call : Call} {e : RegistryError} (refused : r.Refuses call e) :
      Effect r call (.error e) (r.intern (call.enters r))

variable {call : Call}

theorem Call.declaration?_eq (call : Call) (self : TypeIdx) :
    call.declaration? = (call.definition? self).map fun d => (d.name, d.kind) := by
  cases call with
  | defineType isStruct => cases isStruct <;> rfl
  | defineContract | contractOrDeclare | extendType | extendBuiltin => rfl

theorem Call.declaration?_of_definition? {self : TypeIdx}
    (defines : call.definition? self = some d) : call.declaration? = some (d.name, d.kind) := by
  rw [call.declaration?_eq self, defines, Option.map_some]

theorem Effect.of_ok {a : Option TypeIdx} (h : call.run r = .ok a r')
    (effect : r.Effect call (.ok a) r') : r.Effect call (r.answer call) (r.after call) := by
  rwa [answer, after, outcome, endState, h]

theorem Effect.of_error {e : RegistryError} (h : call.run r = .error e r')
    (effect : r.Effect call (.error e) r') : r.Effect call (r.answer call) (r.after call) := by
  rwa [answer, after, outcome, endState, h]

/-- A call that fails before it enters any name changes nothing at all. -/
theorem Effect.of_idle {e : RegistryError} (h : call.run r = .error e r)
    (idle : call.enters r = []) (refused : r.Refuses call e) :
    r.Effect call (r.answer call) (r.after call) := by
  have hsame : r.intern (call.enters r) = r := by
    rw [idle]
    rfl
  have heffect : r.Effect call (.error e) (r.intern (call.enters r)) := .failed refused
  rw [hsame] at heffect
  exact .of_error h heffect

/-- What a call does that declares a type of a name, if that is what it comes to. -/
theorem effect_of_define {declare : Change TypeIdx} {body : TypeBody}
    {complete : TypeIdx → TypeDef → TypeDef}
    (runs : call.run = declare >>= fun idx => pure (some idx))
    (defines : declare r = define name body (call.mentions ·) complete r)
    (completed : ∀ idx, call.definition? idx = some (complete idx ⟨name, true, body⟩))
    (named : ∀ idx, (complete idx ⟨name, true, body⟩).name = name)
    (enters : call.enters r =
      if (r.byName? name).isNone ∧ r.types.size < UInt32.size then
        name :: call.mentions ⟨r.types.size⟩
      else [name])
    (taken : ∀ idx, r.byName? name = some idx → r.Refuses call (.duplicateType name)) :
    r.Effect call (r.answer call) (r.after call) := by
  have hok {idx : TypeIdx} {r' : Registry}
      (h : define name body (call.mentions ·) complete r = .ok idx r') :
      call.run r = .ok (some idx) r' := by
    rw [runs, bind_of_ok (defines.trans h)]
    rfl
  have herror {e : RegistryError} {r' : Registry}
      (h : define name body (call.mentions ·) complete r = .error e r') :
      call.run r = .error e r' := by
    rw [runs, bind_of_error (defines.trans h)]
  cases hnamed : r.byName? name with
  | some idx =>
      rw [if_neg (by simp [hnamed])] at enters
      have hfails := herror (bind_of_error (reserve_of_named hnamed body))
      rw [← enters] at hfails
      exact .of_error hfails (.failed (taken idx hnamed))
  | none =>
      have hdefine := define_of_new hnamed body (call.mentions ·) complete
      by_cases room : r.types.size < UInt32.size
      · rw [if_pos ⟨by simp [hnamed], room⟩] at enters
        rw [if_pos room, ← enters] at hdefine
        refine .of_ok (hok hdefine) (.declared (completed _) ?_ room)
        rw [named, hnamed]
      · rw [if_neg fun h => room h.2] at enters
        rw [if_neg room, ← enters] at hdefine
        have hasked := call.declaration?_eq ⟨r.types.size⟩
        rw [completed, Option.map_some, named] at hasked
        exact .of_error (herror hdefine) (.failed (.noRoom hasked hnamed (Nat.le_of_not_lt room)))

/-- **What a call does.** Every call has one of the effects. -/
theorem effect (r : Registry) (call : Call) : r.Effect call (r.answer call) (r.after call) := by
  cases call with
  | defineType isStruct name decl =>
      exact effect_of_define rfl (congrFun (defineType_eq isStruct name decl) r)
        (fun _ => congrArg some (addTo_blank isStruct name _).symm) (fun _ => rfl) rfl
        fun _ => .typeTaken
  | defineContract name decl =>
      exact effect_of_define rfl (congrFun (defineContract_eq name decl) r) (fun _ => rfl)
        (fun _ => rfl) rfl fun _ => .contractTaken
  | contractOrDeclare name decl =>
      cases hnamed : r.byName? name with
      | none =>
          have hdefines := (contractOrDeclare_of_new hnamed decl).trans
            (congrFun (defineContract_eq name decl) r)
          exact effect_of_define rfl hdefines (fun _ => rfl) (fun _ => rfl)
            (if_pos (by simp [hnamed])) fun idx named => absurd (hnamed.symm.trans named) nofun
      | some idx =>
          obtain ⟨⟨d, hd, -⟩, -⟩ := byName?_eq_some_iff.1 hnamed
          have hrun := contractOrDeclare_of_named hnamed hd decl
          cases hcontract : d.isContract with
          | true =>
              rw [if_pos hcontract] at hrun
              exact .of_ok (bind_of_ok hrun) (.found hnamed hd hcontract)
          | false =>
              rw [if_neg (by simp [hcontract])] at hrun
              exact .of_idle (bind_of_error hrun) (by simp [Call.enters, hnamed])
                (.notContract hnamed hd hcontract)
  | extendType idx decl =>
      cases hd : r.type? idx with
      | none =>
          exact .of_idle (bind_of_error (extendType_of_unknown hd decl))
            (by simp [Call.enters, hd]) (.notDeclared hd)
      | some d =>
          have hrun := extendType_of_known hd decl
          cases hcontract : d.isContract with
          | false =>
              rw [if_neg (by simp [hcontract])] at hrun
              exact .of_ok (bind_of_ok hrun) (.extended hd hcontract)
          | true =>
              rw [if_pos hcontract] at hrun
              exact .of_idle (bind_of_error hrun) (by simp [Call.enters, hd, hcontract])
                (.contract hd hcontract)
  | extendBuiltin b decl => exact .of_ok rfl (.builtinExtended b decl)

/-! ## What a call leaves, and what it adds -/

/-- What a call enters into the name table, whether it succeeds or not. -/
theorem Effect.names {result : Except RegistryError (Option TypeIdx)}
    (effect : r.Effect call result r') : r'.names = r.names.insertMany (call.enters r) := by
  cases effect with
  | declared | failed | builtinExtended => rfl
  | found named =>
      simp only [Call.enters, named]
      rfl
  | extended known other =>
      simp only [Call.enters, known, Option.any_some, other]
      rfl

theorem Call.mem_enters {kind : TypeKind} (asked : call.declaration? = some (name, kind))
    (new : r.byName? name = none) : name ∈ call.enters r := by
  have hdefining : name ∈ if (r.byName? name).isNone ∧ r.types.size < UInt32.size then
      name :: call.mentions ⟨r.types.size⟩ else [name] := by
    split <;> simp
  cases call with
  | defineType | defineContract =>
      obtain ⟨rfl, rfl⟩ := Prod.mk.inj (Option.some.inj asked)
      exact hdefining
  | contractOrDeclare =>
      obtain ⟨rfl, rfl⟩ := Prod.mk.inj (Option.some.inj asked)
      rw [Call.enters, if_pos (by rw [new]; rfl)]
      exact hdefining
  | extendType | extendBuiltin => exact nomatch asked

/-- A name leads where it did, but for that of a type which is declared now. -/
theorem Effect.byName? {result : Except RegistryError (Option TypeIdx)}
    (effect : r.Effect call result r') (text : String) : r'.byName? text =
      if call.declaration?.map Prod.fst = some text ∧ r.byName? text = none ∧
          r.types.size < UInt32.size then some ⟨r.types.size⟩
      else r.byName? text := by
  cases effect with
  | @declared _ d defines new room =>
      rw [byName?_of_push new rfl, Call.declaration?_of_definition? defines]
      by_cases same : text = d.name
      · subst same
        rw [if_pos rfl, if_pos ⟨rfl, new, room⟩]
      · rw [if_neg same, if_neg fun h => same (Option.some.inj h.1).symm]
  | found named =>
      refine (if_neg ?_).symm
      rintro ⟨asked, new, -⟩
      obtain rfl := Option.some.inj asked
      exact absurd (named.symm.trans new) nofun
  | @extended idx decl d known other =>
      have hname := (TypeDef.extendedBy_addTo other (decl (.named idx))).name
      exact (byName?_congr (map_type?_modify known hname _) text).trans
        (if_neg fun h => nomatch h.1).symm
  | builtinExtended => exact (if_neg fun h => nomatch h.1).symm
  | failed refused =>
      refine (if_neg ?_).symm
      rintro ⟨asked, new, room⟩
      cases refused <;> grind [Call.declaration?]

/-- Each type stays where it is, and stays the same in all that extensions leave the same. -/
theorem Effect.exists_type? {result : Except RegistryError (Option TypeIdx)}
    (effect : r.Effect call result r') (rel : TypeDef → TypeDef → Prop) (refl : ∀ d, rel d d)
    (extension : ∀ at_ decl d, call = .extendType at_ decl → d.isContract = false →
      rel d ((decl (.named at_)).addTo d))
    (known : r.type? idx = some d) : ∃ d', r'.type? idx = some d' ∧ rel d d' := by
  cases effect with
  | declared => exact ⟨d, type?_of_push rfl known, refl d⟩
  | found | builtinExtended | failed => exact ⟨d, known, refl d⟩
  | @extended at_ decl old hold other =>
      rw [type?_modify hold]
      split
      · rename_i same
        subst same
        obtain rfl := Option.some.inj (known.symm.trans hold)
        exact ⟨_, rfl, extension _ decl d rfl other⟩
      · exact ⟨d, known, refl d⟩

/-- A call that fails has a reason to. -/
theorem Effect.refuses {e : RegistryError} (effect : r.Effect call (.error e) r') :
    r.Refuses call e := by
  cases effect with
  | failed refused => exact refused

/-- A call that fails enters names at most. -/
theorem Effect.eq_intern {e : RegistryError} (effect : r.Effect call (.error e) r') :
    r' = r.intern (call.enters r) := by
  cases effect with
  | failed => rfl

/-- An extension that succeeds puts what is declared after what the type had. -/
theorem Effect.extendedBy {decl : TypeRef → ImplementationDecl} {a : Option TypeIdx}
    (effect : r.Effect (.extendType idx decl) (.ok a) r') :
    ∃ d d', r.type? idx = some d ∧ r'.type? idx = some d' ∧
      d.ExtendedBy (decl (.named idx)) d' := by
  cases effect with
  | declared defines => exact nomatch defines
  | @extended _ _ d known other =>
      exact ⟨d, _, known, (type?_modify known _ _ idx).trans (if_pos rfl),
        TypeDef.extendedBy_addTo other _⟩

theorem extended_of_answer {decl : TypeRef → ImplementationDecl} {a : Option TypeIdx}
    (h : r.answer (.extendType idx decl) = .ok a) : ∃ d d', r.type? idx = some d ∧
      (r.after (.extendType idx decl)).type? idx = some d' ∧
        d.ExtendedBy (decl (.named idx)) d' := by
  have heffect := r.effect (.extendType idx decl)
  rw [h] at heffect
  exact heffect.extendedBy

/-- The further members of a built-in type come after those that it had. -/
theorem appends_extendBuiltin (r : Registry) (b : Builtin) (decl : TypeRef → ImplementationDecl) :
    ∃ ms, (r.extendBuiltin b decl).builtinMembers b = some ms ∧
      ((r.builtinMembers b).getD {}).Appends (decl (.builtin b)).members ms :=
  ⟨_, if_pos rfl, Members.appends_append _ _⟩

/-! ## Changes that come to a call -/

/-- A change that comes to making some call, which may depend on the registry. -/
def IsCall {α : Type} (change : Change α) : Prop :=
  ∀ r, ∃ call : Call, endState change r = r.after call

theorem isCall_defineType (isStruct : Bool) (name : String) (decl : TypeRef → ImplementationDecl) :
    IsCall (defineType isStruct name decl) :=
  fun r => ⟨.defineType isStruct name decl, (endState_map some r).symm⟩

/-- What holds from before to after every call holds of every change that comes to one. -/
theorem IsCall.along {α : Type} {step : Registry → Registry → Prop} {change : Change α}
    (h : IsCall change) (calls : ∀ r call, step r (r.after call)) : Along id step change := by
  intro r
  obtain ⟨call, hcall⟩ := h r
  rw [id, id, hcall]
  exact .single (calls r call)

end Registry

end Contracts
