import Contracts.Proofs.DynamicConversion
import Contracts.Proofs.NameKeeping

set_option autoImplicit false

/-! # Standard contracts and their arguments

A standard contract is found again by its name, which is made from what its arguments are called. So
it is the contract of just these arguments only if names can be told apart: a class may be called
like a built-in type, and of two arguments it may be unclear where the first one ends
(`StandardContract.declare_of_same_name`).

Where classes and structs do not have such names, a standard contract asks for what its arguments
say, and different arguments give different contracts (`StandardContract.faithful_of_declare`). Most
of the way to it is to read the arguments off the name. Brackets match in the names of standard
contracts, so the comma between two arguments is the first one outside of all inner brackets; and a
text is what at most one type is called, also over time. -/

namespace Contracts

/-! ## Brackets in names -/

/-- The depth in angle brackets after a character. A bracket is closed and a comma is written only
inside a bracket. -/
def bracketStep (depth : Nat) (c : Char) : Option Nat :=
  if c = '<' then some (depth + 1)
  else if c = '>' then if depth = 0 then none else some (depth - 1)
  else if c = ',' ∧ depth = 0 then none
  else some depth

/-- The angle brackets of a text match, and commas stand only inside of them. -/
def Bracketed (text : String) : Prop := text.toList.foldlM bracketStep 0 = some 0

instance (text : String) : Decidable (Bracketed text) :=
  inferInstanceAs (Decidable (_ = _))

section Brackets

variable {a b depth : Nat} {c : Char} {xs ys : List Char} {text : String}

/-- What can be written can be written inside more brackets too. -/
theorem bracketStep_add (h : bracketStep a c = some b) (depth : Nat) :
    bracketStep (a + depth) c = some (b + depth) := by
  unfold bracketStep at h ⊢
  grind

theorem foldlM_bracketStep_add (h : xs.foldlM bracketStep a = some b) (depth : Nat) :
    xs.foldlM bracketStep (a + depth) = some (b + depth) := by
  induction xs generalizing a with
  | nil =>
      obtain rfl := Option.some.inj h
      rfl
  | cons c xs ih =>
      obtain ⟨a', hc, hxs⟩ := Option.bind_eq_some_iff.1 h
      exact Option.bind_eq_some_iff.2 ⟨_, bracketStep_add hc depth, ih hxs⟩

theorem Bracketed.inside (h : Bracketed text) (depth : Nat) :
    text.toList.foldlM bracketStep depth = some depth := by
  simpa using foldlM_bracketStep_add h depth

/-- Other characters than brackets and commas can be written anywhere. -/
theorem foldlM_bracketStep_of_plain (h : ∀ c ∈ xs, c ≠ '<' ∧ c ≠ '>' ∧ c ≠ ',') (depth : Nat) :
    xs.foldlM bracketStep depth = some depth := by
  induction xs with
  | nil => rfl
  | cons c xs ih =>
      obtain ⟨hc, hxs⟩ := List.forall_mem_cons.1 h
      have hstep : bracketStep depth c = some depth := by
        unfold bracketStep
        grind
      rw [List.foldlM_cons, hstep]
      exact ih hxs

theorem foldlM_bracketStep_repr (n depth : Nat) :
    n.repr.toList.foldlM bracketStep depth = some depth := by
  refine foldlM_bracketStep_of_plain (fun c hc => ?_) depth
  rw [Nat.toList_repr] at hc
  have hdigit := Nat.isDigit_of_mem_toDigits (by decide) (by decide) hc
  refine ⟨?_, ?_, ?_⟩ <;>
  · rintro rfl
    exact absurd hdigit (by decide)

/-- A text in which commas are bracketed goes on as far as the next comma. -/
theorem eq_of_append_comma {xs' ys' : List Char} (h : xs.foldlM bracketStep 0 = some 0)
    (h' : xs'.foldlM bracketStep 0 = some 0) (same : xs ++ ',' :: ys = xs' ++ ',' :: ys') :
    xs = xs' := by
  -- If one goes on longer, it has the comma of the other outside of brackets.
  have hcomma : ∀ {zs zs' rest : List Char}, zs.foldlM bracketStep 0 = some 0 →
      zs'.foldlM bracketStep 0 = some 0 → zs' ≠ zs ++ ',' :: rest := by
    rintro zs zs' rest hzs hzs' rfl
    rw [List.foldlM_append, hzs] at hzs'
    exact absurd hzs' (by simp [bracketStep])
  rcases List.append_eq_append_iff.1 same with ⟨more, hxs', hrest⟩ | ⟨more, hxs, hrest⟩
  · cases more with
    | nil => simpa using hxs'.symm
    | cons c more =>
        obtain ⟨rfl, -⟩ := List.cons.inj hrest
        exact absurd hxs' (hcomma h h')
  · cases more with
    | nil => simpa using hxs
    | cons c more =>
        obtain ⟨rfl, -⟩ := List.cons.inj hrest
        exact absurd hxs (hcomma h' h)

end Brackets

/-! ## Names of types -/

namespace Registry

/-- Some type is called like this before anything is declared: a built-in one, a position, or a
generic parameter. -/
def Reserved (name : String) : Prop := ∃ ty, empty.typeName ty = name

theorem typeName_builtin (r : Registry) (b : Builtin) : r.typeName (.builtin b) = b.name := rfl

theorem typeName_param (r : Registry) (i : Nat) : r.typeName (.param i) = "T" ++ i.repr := rfl

theorem typeName_of_type? {r : Registry} {idx : TypeIdx} {d : TypeDef} (h : r.type? idx = some d) :
    r.typeName (.named idx) = d.name := by
  rw [typeName, h]

theorem typeName_of_type?_eq_none {r : Registry} {idx : TypeIdx} (h : r.type? idx = none) :
    r.typeName (.named idx) = "<type " ++ idx.index.repr ++ ">" := by
  rw [typeName, h]
  rfl

/-- What a type is called is the name of its declaration, or a reserved name. -/
theorem typeName_cases (r : Registry) (ty : TypeRef) :
    (∃ idx d, ty = .named idx ∧ r.type? idx = some d ∧ r.typeName ty = d.name) ∨
      r.typeName ty = empty.typeName ty := by
  cases ty with
  | builtin b => exact Or.inr rfl
  | param i => exact Or.inr rfl
  | named idx =>
      cases hd : r.type? idx with
      | some d => exact Or.inl ⟨idx, d, rfl, hd, typeName_of_type? hd⟩
      | none =>
          refine Or.inr ?_
          rw [typeName_of_type?_eq_none hd, typeName_of_type?_eq_none rfl]

/-- What the names of built-in types begin with. -/
def builtinInitials : List Char := ['b', 'c', 'f', 'i', 'o', 's', 'u', 'v']

theorem initial_builtin (b : Builtin) :
    b.name.toList.head?.any builtinInitials.contains = true := by
  cases b with
  | int t => cases t <;> decide
  | float t => cases t <;> decide
  | _ => decide

theorem initial_param (i : Nat) : (empty.typeName (.param i)).toList.head? = some 'T' := by
  rw [typeName_param, String.toList_append]
  rfl

theorem initial_position (idx : TypeIdx) :
    (empty.typeName (.named idx)).toList.head? = some '<' := by
  rw [typeName_of_type?_eq_none rfl, String.append_assoc, String.toList_append]
  rfl

/-- Positions and generic parameters begin with other letters than built-in types. -/
theorem eq_builtin_of_typeName {ty : TypeRef} {b : Builtin} (h : empty.typeName ty = b.name) :
    ty = .builtin b := by
  have hinitial := initial_builtin b
  rw [← h] at hinitial
  cases ty with
  | builtin b' =>
      have hsame := congrArg Builtin.ofName? ((typeName_builtin _ b').symm.trans h)
      rw [Builtin.ofName?_name, Builtin.ofName?_name] at hsame
      rw [Option.some.inj hsame]
  | param i =>
      rw [initial_param] at hinitial
      exact absurd hinitial (by decide)
  | named idx =>
      rw [initial_position] at hinitial
      exact absurd hinitial (by decide)

/-- A name is not reserved if it begins with something else. -/
theorem not_reserved_of_initial {name : String} {letter : Char}
    (initial : name.toList.head? = some letter) (other : letter ∉ 'T' :: '<' :: builtinInitials) :
    ¬Reserved name := by
  rintro ⟨ty, rfl⟩
  refine other ?_
  cases ty with
  | builtin b =>
      have hbuiltin : (some letter).any builtinInitials.contains = true :=
        initial ▸ initial_builtin b
      exact List.mem_cons_of_mem _ (List.mem_cons_of_mem _ (List.contains_iff_mem.1 hbuiltin))
  | param i =>
      obtain rfl := Option.some.inj (initial.symm.trans (initial_param i))
      exact List.mem_cons_self
  | named idx =>
      obtain rfl := Option.some.inj (initial.symm.trans (initial_position idx))
      exact List.mem_cons_of_mem _ List.mem_cons_self

theorem bracketed_of_reserved {name : String} (h : Reserved name) : Bracketed name := by
  obtain ⟨ty, rfl⟩ := h
  cases ty with
  | builtin b =>
      cases b with
      | int t => cases t <;> decide
      | float t => cases t <;> decide
      | _ => decide
  | param i =>
      rw [typeName_param, Bracketed, String.toList_append, List.foldlM_append]
      exact foldlM_bracketStep_repr i 0
  | named idx =>
      rw [typeName_of_type?_eq_none rfl, Bracketed, String.toList_append, String.toList_append,
        List.foldlM_append, List.foldlM_append]
      have hopen : "<type ".toList.foldlM bracketStep 0 = some 1 := by decide
      rw [hopen, Option.bind_eq_bind, Option.bind_some, foldlM_bracketStep_repr]
      decide

end Registry

namespace StandardContract

/-- The first two letters of the contract's name. -/
def initials : StandardContract → List Char
  | .castableTo _ => ['C', 'a']
  | .implicitlyConvertibleTo _ => ['I', 'm']
  | .addable _ _ => ['A', 'd']
  | .concatable => ['C', 'o']
  | .parsable => ['P', 'a']
  | .stringable => ['S', 't']

section

variable (r : Registry) (target input output : TypeRef)

theorem name_castableTo :
    (castableTo target).name r = "CastableTo<" ++ r.typeName target ++ ">" := rfl

theorem name_implicitlyConvertibleTo : (implicitlyConvertibleTo target).name r =
    "ImplicitlyConvertibleTo<" ++ r.typeName target ++ ">" := rfl

theorem name_addable : (addable input output).name r =
    "Addable<" ++ r.typeName input ++ ", " ++ r.typeName output ++ ">" := rfl

theorem take_name (c : StandardContract) : (c.name r).toList.take 2 = c.initials := by
  cases c with
  | castableTo target =>
      rw [name_castableTo, String.append_assoc, String.toList_append]
      rfl
  | implicitlyConvertibleTo target =>
      rw [name_implicitlyConvertibleTo, String.append_assoc, String.toList_append]
      rfl
  | addable input output =>
      simp only [name_addable, String.append_assoc]
      rw [String.toList_append]
      rfl
  | concatable => exact (by decide : "Concatable".toList.take 2 = ['C', 'o'])
  | parsable => exact (by decide : "Parsable".toList.take 2 = ['P', 'a'])
  | stringable => exact (by decide : "Stringable".toList.take 2 = ['S', 't'])

end

/-- Reserved names begin with other letters than those of contracts. -/
theorem not_reserved_name (c : StandardContract) (r : Registry) :
    ¬Registry.Reserved (c.name r) := by
  have hinitials : ∃ letter, c.initials.head? = some letter ∧
      letter ∉ 'T' :: '<' :: Registry.builtinInitials := by
    cases c <;> exact ⟨_, rfl, by decide⟩
  obtain ⟨letter, hletter, hother⟩ := hinitials
  refine Registry.not_reserved_of_initial ?_ hother
  rw [← hletter, ← c.take_name r, List.head?_take, if_neg (by decide)]

/-- The brackets of a contract's name match if those of its arguments do. -/
theorem bracketed_name {c : StandardContract} {r : Registry}
    (h : ∀ ty ∈ c.args, Bracketed (r.typeName ty)) : Bracketed (c.name r) := by
  -- Arguments are written one bracket in.
  have henclosed : ∀ {start inner : String}, start.toList.foldlM bracketStep 0 = some 1 →
      inner.toList.foldlM bracketStep 1 = some 1 → Bracketed (start ++ inner ++ ">") := by
    intro start inner hstart hinner
    rw [Bracketed, String.toList_append, String.toList_append, List.foldlM_append,
      List.foldlM_append, hstart, Option.bind_eq_bind, Option.bind_some, hinner]
    decide
  cases c with
  | castableTo target => exact henclosed (by decide) ((h target List.mem_cons_self).inside 1)
  | implicitlyConvertibleTo target =>
      exact henclosed (by decide) ((h target List.mem_cons_self).inside 1)
  | addable input output =>
      have hinput := (h input (by simp [args])).inside 1
      have houtput := (h output (by simp [args])).inside 1
      have hcomma : ", ".toList.foldlM bracketStep 1 = some 1 := by decide
      have hboth : (r.typeName input ++ ", " ++ r.typeName output).toList.foldlM bracketStep 1 =
          some 1 := by
        simp only [String.toList_append, List.foldlM_append, hinput, hcomma, houtput,
          Option.bind_eq_bind, Option.bind_some]
      have hstart : "Addable<".toList.foldlM bracketStep 0 = some 1 := by decide
      simpa only [name_addable, String.append_assoc] using henclosed hstart hboth
  | concatable => exact (by decide : Bracketed "Concatable")
  | parsable => exact (by decide : Bracketed "Parsable")
  | stringable => exact (by decide : Bracketed "Stringable")

/-- Contracts of one name are one, if their arguments are one where they are called the same. If
there are two arguments, the comma between them must be the first outside of brackets. -/
theorem eq_of_name {c c' : StandardContract} {r s : Registry} (same : c.name r = c'.name s)
    (bracketed : 1 < c.args.length → (∀ ty ∈ c.args, Bracketed (r.typeName ty)) ∧
      ∀ ty ∈ c'.args, Bracketed (s.typeName ty))
    (args : ∀ ty ∈ c.args, ∀ ty' ∈ c'.args, r.typeName ty = s.typeName ty' → ty = ty') :
    c = c' := by
  have hinitials : c.initials = c'.initials := by rw [← c.take_name r, same, c'.take_name s]
  cases c with
  | castableTo target =>
      cases c' with
      | castableTo target' =>
          have hname : r.typeName target = s.typeName target' := by
            simpa [name_castableTo, String.append_assoc] using same
          rw [args target List.mem_cons_self target' List.mem_cons_self hname]
      | _ => exact absurd hinitials (by simp [initials])
  | implicitlyConvertibleTo target =>
      cases c' with
      | implicitlyConvertibleTo target' =>
          have hname : r.typeName target = s.typeName target' := by
            simpa [name_implicitlyConvertibleTo, String.append_assoc] using same
          rw [args target List.mem_cons_self target' List.mem_cons_self hname]
      | _ => exact absurd hinitials (by simp [initials])
  | addable input output =>
      cases c' with
      | addable input' output' =>
          obtain ⟨hbracketed, hbracketed'⟩ := bracketed (Nat.lt_succ_self 1)
          have hlists := congrArg String.toList same
          simp only [name_addable, String.append_assoc, String.toList_append] at hlists
          have hcut := List.append_cancel_left hlists
          have hcomma : ", ".toList = [',', ' '] := by decide
          rw [hcomma] at hcut
          have hinput := eq_of_append_comma (hbracketed input List.mem_cons_self)
            (hbracketed' input' List.mem_cons_self) hcut
          rw [hinput] at hcut
          have houtput := List.append_cancel_right
            (List.append_cancel_left (List.append_cancel_left hcut))
          rw [args input List.mem_cons_self input' List.mem_cons_self (String.toList_inj.1 hinput),
            args output (by simp [StandardContract.args]) output'
              (by simp [StandardContract.args]) (String.toList_inj.1 houtput)]
      | _ => exact absurd hinitials (by simp [initials])
  | concatable =>
      cases c' with
      | concatable => rfl
      | _ => exact absurd hinitials (by simp [initials])
  | parsable =>
      cases c' with
      | parsable => rfl
      | _ => exact absurd hinitials (by simp [initials])
  | stringable =>
      cases c' with
      | stringable => rfl
      | _ => exact absurd hinitials (by simp [initials])

end StandardContract

/-! ## Registries with standard contracts only -/

namespace Registry

/-- One step in building up a registry in which all contracts are standard ones. A declaration that
fails is a step too. -/
inductive Builds (r : Registry) : Registry → Prop
  | define (isStruct : Bool) (name : String) (decl : TypeRef → ImplementationDecl) :
      Builds r (endState (defineType isStruct name decl) r)
  | extend (idx : TypeIdx) (decl : TypeRef → ImplementationDecl) :
      Builds r (endState (extendType idx decl) r)
  | extendBuiltin (b : Builtin) (decl : TypeRef → ImplementationDecl) :
      Builds r (r.extendBuiltin b decl)
  | declare (c : StandardContract) : Builds r (endState c.declare r)

/-- Where a type of a registry comes from, as seen from the registry before the last step. -/
inductive Origin (r : Registry) (idx : TypeIdx) (d : TypeDef) : Prop
  | kept (known : r.type? idx = some d)
  | extended {old : TypeDef} (known : r.type? idx = some old) (name : d.name = old.name)
      (other : d.isContract = false)
  | new (last : idx = ⟨r.types.size⟩) (new : r.byName? d.name = none)
      (kind : d.isContract = false ∨ ∃ c : StandardContract, d = c.definition r)

variable {r r' s : Registry} {idx : TypeIdx} {d : TypeDef} {c : StandardContract}

/-- Each step is a call, which declares no contract but a standard one. -/
theorem Builds.exists_call (h : r.Builds r') : ∃ call : Call, r' = r.after call ∧
    ∀ self d, call.definition? self = some d →
      d.isContract = false ∨ ∃ c : StandardContract, d = c.definition r := by
  cases h with
  | define isStruct name decl =>
      refine ⟨.defineType isStruct name decl, (endState_map some r).symm, fun self d defines => ?_⟩
      obtain rfl := Option.some.inj defines
      cases isStruct <;> exact Or.inl rfl
  | extend idx decl => exact ⟨.extendType idx decl, (endState_map _ r).symm, nofun⟩
  | extendBuiltin b decl => exact ⟨.extendBuiltin b decl, rfl, nofun⟩
  | declare c =>
      exact ⟨c.call r, c.endState_declare r,
        fun _ _ defines => Or.inr ⟨c, (Option.some.inj defines).symm⟩⟩

theorem Builds.upholds (h : r.Builds r') : r.Upholds r' := by
  obtain ⟨call, rfl, -⟩ := h.exists_call
  exact (r.effect call).upholds

theorem Builds.retains (h : r.Builds r') : r.Retains r' := by
  obtain ⟨call, rfl, -⟩ := h.exists_call
  exact (r.effect call).retains

theorem origin_of_push {pushed : TypeDef} (types : r'.types = r.types.push pushed)
    (new : r.byName? pushed.name = none)
    (kind : pushed.isContract = false ∨ ∃ c : StandardContract, pushed = c.definition r)
    (known : r'.type? idx = some d) : r.Origin idx d := by
  rw [type?, types, Array.getElem?_push] at known
  split at known
  · rename_i last
    obtain rfl := Option.some.inj known
    exact .new (by rw [← last]) new kind
  · exact .kept known

/-- Everything that a step can do to the types. -/
theorem Builds.origin (h : r.Builds r') (known : r'.type? idx = some d) : r.Origin idx d := by
  obtain ⟨call, rfl, standard⟩ := h.exists_call
  have heffect := r.effect call
  generalize r.answer call = result, r.after call = r' at heffect known
  cases heffect with
  | declared defines new => exact origin_of_push rfl new (standard _ _ defines) known
  | found | builtinExtended | failed => exact .kept known
  | @extended _ decl _ hold other =>
      rw [type?_modify hold] at known
      split at known
      · rename_i same
        subst same
        obtain rfl := Option.some.inj known
        have hextended := TypeDef.extendedBy_addTo other (decl (.named idx))
        exact .extended hold hextended.name (hextended.isContract.trans other)
      · exact .kept known

/-- All contracts are standard ones, declared under the names that they had then. Types have
different names, and brackets match in the names of all types if they do in those of classes and
structs. -/
structure Premade (r : Registry) : Prop where
  distinct : ∀ {i j d e}, r.type? i = some d → r.type? j = some e → d.name = e.name → i = j
  standard : ∀ {idx d}, r.type? idx = some d → d.isContract = true →
    ∃ (c : StandardContract) (s : Registry), s.Upholds r ∧ d = c.definition s
  bracketed : (∀ idx d, r.type? idx = some d → d.isContract = false → Bracketed d.name) →
    ∀ {idx d}, r.type? idx = some d → Bracketed d.name

theorem premade_of_types_eq_empty (h : r.types = #[]) : r.Premade := by
  have hnone : ∀ {idx d}, r.type? idx ≠ some d := fun {idx d} hd => by simp [type?, h] at hd
  exact ⟨fun hd => absurd hd hnone, fun hd => absurd hd hnone, fun _ _ _ hd => absurd hd hnone⟩

theorem bracketed_typeName (h : ∀ {idx d}, r.type? idx = some d → Bracketed d.name)
    (ty : TypeRef) : Bracketed (r.typeName ty) := by
  rcases r.typeName_cases ty with ⟨idx, d, -, hd, hname⟩ | hname <;> rw [hname]
  · exact h hd
  · exact bracketed_of_reserved ⟨ty, rfl⟩

theorem Origin.cases_name (h : r.Origin idx d) :
    (∃ old, r.type? idx = some old ∧ d.name = old.name) ∨
      idx = ⟨r.types.size⟩ ∧ r.byName? d.name = none := by
  cases h with
  | kept known => exact Or.inl ⟨d, known, rfl⟩
  | extended known name => exact Or.inl ⟨_, known, name⟩
  | new last new => exact Or.inr ⟨last, new⟩

/-- A class or struct is one later on, of the same name. -/
theorem Upholds.exists_class (h : s.Upholds r) (known : s.type? idx = some d)
    (other : d.isContract = false) :
    ∃ d', r.type? idx = some d' ∧ d'.isContract = false ∧ d'.name = d.name := by
  obtain ⟨d', hd', hname, hkind⟩ := h.types idx d known
  exact ⟨d', hd', by rwa [TypeDef.isContract, hkind], hname⟩

/-- Each step keeps it so. -/
theorem Premade.step (premade : r.Premade) (h : r.Builds r') : r'.Premade where
  distinct {i j d e} hd he same := by
    rcases (h.origin hd).cases_name with ⟨old, hold, hname⟩ | ⟨hlast, hnew⟩ <;>
      rcases (h.origin he).cases_name with ⟨old', hold', hname'⟩ | ⟨hlast', hnew'⟩
    · exact premade.distinct hold hold' (by rw [← hname, same, hname'])
    · exact absurd (by rw [← same, hname]) (byName?_eq_none_iff.1 hnew' i old hold)
    · exact absurd (by rw [same, hname']) (byName?_eq_none_iff.1 hnew j old' hold')
    · exact hlast.trans hlast'.symm
  standard {idx d} hd contract := by
    cases h.origin hd with
    | kept known =>
        obtain ⟨c, s, hupholds, rfl⟩ := premade.standard known contract
        exact ⟨c, s, hupholds.trans h.upholds, rfl⟩
    | extended _ _ other => exact absurd (contract.symm.trans other) (by simp)
    | new _ _ kind =>
        rcases kind with other | ⟨c, rfl⟩
        · exact absurd (contract.symm.trans other) (by simp)
        · exact ⟨c, r, h.upholds, rfl⟩
  bracketed classes {idx d} hd := by
    have hbefore : ∀ {idx d}, r.type? idx = some d → Bracketed d.name := by
      refine premade.bracketed fun idx d hd other => ?_
      obtain ⟨d', hd', hother, hname⟩ := h.upholds.exists_class hd other
      exact hname ▸ classes idx d' hd' hother
    cases h.origin hd with
    | kept known => exact hbefore known
    | extended _ _ other => exact classes idx d hd other
    | new _ _ kind =>
        rcases kind with other | ⟨c, rfl⟩
        · exact classes idx d hd other
        · exact StandardContract.bracketed_name fun ty _ => bracketed_typeName hbefore ty

/-- A registry that is built up from one without types has only standard contracts. -/
theorem Premade.steps (premade : r.Premade) (h : Relation.ReflTransGen Builds r r') :
    r'.Premade := by
  induction h with
  | refl => exact premade
  | tail _ hstep ih => exact ih.step hstep

theorem upholds_of_builds (h : Relation.ReflTransGen Builds r r') : r.Upholds r' :=
  .of_steps (Relation.ReflTransGen.mono (fun _ _ hstep => hstep.upholds) _ _ h)

/-- Classes without members are declared under these names. -/
def withClasses (names : List String) : Registry :=
  names.foldl (fun r name => endState (defineType false name fun _ => {}) r) {}

theorem builds_withClasses (names : List String) :
    Relation.ReflTransGen Builds {} (withClasses names) := by
  have hfold : ∀ r : Registry, Relation.ReflTransGen Builds r
      (names.foldl (fun r name => endState (defineType false name fun _ => {}) r) r) := by
    induction names with
    | nil => exact fun r => .refl
    | cons name names ih => exact fun r => .head (.define false name fun _ => {}) (ih _)
  exact hfold {}

theorem retains_of_builds (h : Relation.ReflTransGen Builds r r') : r.Retains r' :=
  .of_steps (Relation.ReflTransGen.mono (fun _ _ hstep => hstep.retains) _ _ h)

/-! ## The contract of a name -/

/-- The type can be an argument of a standard contract: a built-in one that values have, or a
declared one. -/
inductive Proper (r : Registry) : TypeRef → Prop
  | builtin {b : Builtin} (nonvoid : b ≠ .void) : r.Proper (.builtin b)
  | named {idx : TypeIdx} {d : TypeDef} (known : r.type? idx = some d) : r.Proper (.named idx)

theorem Proper.of_isSome (h : (r.type? idx).isSome = true) : r.Proper (.named idx) := by
  obtain ⟨d, hd⟩ := Option.isSome_iff_exists.1 h
  exact .named hd

/-- No class or struct has a reserved name; and if the contract has two arguments, then brackets
match in the names of classes and structs, with all commas inside of them. -/
structure Legible (r : Registry) (c : StandardContract) : Prop where
  plain : ∀ idx d, r.type? idx = some d → d.isContract = false → ¬Reserved d.name
  bracketed : 1 < c.args.length →
    ∀ idx d, r.type? idx = some d → d.isContract = false → Bracketed d.name

theorem Legible.of_names
    (h : ∀ d ∈ r.types, d.isContract = false → ¬Reserved d.name ∧ Bracketed d.name) :
    r.Legible c where
  plain _ d hd other := (h d (Array.mem_of_getElem? hd) other).1
  bracketed _ _ d hd other := (h d (Array.mem_of_getElem? hd) other).2

theorem Legible.earlier (legible : r.Legible c) (h : s.Upholds r) : s.Legible c where
  plain idx d hd other := by
    obtain ⟨d', hd', hother, hname⟩ := h.exists_class hd other
    exact hname ▸ legible.plain idx d' hd' hother
  bracketed two idx d hd other := by
    obtain ⟨d', hd', hother, hname⟩ := h.exists_class hd other
    exact hname ▸ legible.bracketed two idx d' hd' hother

theorem Premade.not_reserved (premade : r.Premade) (legible : r.Legible c)
    (known : r.type? idx = some d) : ¬Reserved d.name := by
  cases hcontract : d.isContract with
  | false => exact legible.plain idx d known hcontract
  | true =>
      obtain ⟨c', s, -, rfl⟩ := premade.standard known hcontract
      exact c'.not_reserved_name s

/-- A type that can be an argument is called like no other, now or before. -/
theorem Premade.eq_of_typeName (premade : r.Premade) (legible : r.Legible c) (h : s.Upholds r)
    {ty ty' : TypeRef} (proper : r.Proper ty) (same : r.typeName ty = s.typeName ty') :
    ty = ty' := by
  rcases s.typeName_cases ty' with ⟨idx', old, rfl, hold, hname⟩ | hreserved
  · obtain ⟨d', hd', hname', -⟩ := h.types idx' old hold
    rw [hname, ← hname'] at same
    cases proper with
    | @builtin b _ => exact absurd ⟨.builtin b, same⟩ (premade.not_reserved legible hd')
    | named known =>
        rw [typeName_of_type? known] at same
        rw [premade.distinct known hd' same]
  · rw [hreserved] at same
    cases proper with
    | builtin => exact (eq_builtin_of_typeName same.symm).symm
    | named known =>
        rw [typeName_of_type? known] at same
        exact absurd ⟨ty', same.symm⟩ (premade.not_reserved legible known)

/-- A contract of the name that a standard contract has now is that standard contract. -/
theorem Premade.eq_definition (premade : r.Premade) (legible : r.Legible c)
    (proper : ∀ ty ∈ c.args, r.Proper ty) (known : r.type? idx = some d)
    (contract : d.isContract = true) (named : d.name = c.name r) : d = c.definition r := by
  obtain ⟨c', s, hupholds, rfl⟩ := premade.standard known contract
  have hsame : c.name r = c'.name s := named.symm
  have hbracketed : 1 < c.args.length → (∀ ty ∈ c.args, Bracketed (r.typeName ty)) ∧
      ∀ ty ∈ c'.args, Bracketed (s.typeName ty) := by
    intro two
    have hnow : ∀ {idx d}, r.type? idx = some d → Bracketed d.name :=
      premade.bracketed (legible.bracketed two)
    refine ⟨fun ty _ => bracketed_typeName hnow ty, fun ty _ => bracketed_typeName ?_ ty⟩
    intro idx d hd
    obtain ⟨d', hd', hname, -⟩ := hupholds.types idx d hd
    exact hname ▸ hnow hd'
  obtain rfl := StandardContract.eq_of_name hsame hbracketed fun ty hty ty' _ =>
    premade.eq_of_typeName legible hupholds (proper ty hty)
  rw [StandardContract.definition, StandardContract.definition, hsame]

/-- What declaring a standard contract gives is that standard contract. -/
theorem Premade.type?_of_declare (premade : r.Premade) (legible : r.Legible c)
    (proper : ∀ ty ∈ c.args, r.Proper ty) (declared : outcome c.declare r = .ok idx) :
    (endState c.declare r).type? idx = some (c.definition r) := by
  have heffect := r.effect (c.call r)
  rw [c.answer_call, declared, ← c.endState_declare] at heffect
  generalize endState c.declare r = r' at heffect ⊢
  cases heffect with
  | declared defines =>
      obtain rfl := Option.some.inj defines
      exact Array.getElem?_push_size
  | found named known contract =>
      obtain ⟨⟨found, hfound, hname⟩, -⟩ := byName?_eq_some_iff.1 named
      obtain rfl := Option.some.inj (known.symm.trans hfound)
      rw [← premade.eq_definition legible proper known contract hname]
      exact known

/-! ## What is extracted from a standard contract -/

theorem Proper.ne {ty : TypeRef} (h : r.Proper ty) : ty ≠ .void ∧ ∀ i, ty ≠ .param i := by
  cases h with
  | builtin nonvoid => exact ⟨fun h => nonvoid (TypeRef.builtin.inj h), nofun⟩
  | named => exact ⟨nofun, nofun⟩

end Registry

namespace StandardContract

variable {r : Registry} {c c' : StandardContract}

theorem inShape_addition {input output : TypeRef} (hinput : r.Proper input)
    (houtput : r.Proper output) (name : String) (side : Side) :
    (addition name side input output).InShape where
  consistent := by simp [addition]
  declared i h := by
    rcases h with h | h
    · exact absurd (List.mem_singleton.1 h).symm (hinput.ne.2 i)
    · exact absurd h (houtput.ne.2 i)
  nonvoid h := hinput.ne.1 (List.mem_singleton.1 h).symm
  conversion := by simp [addition]
  operator _ _ _ := ⟨input, rfl⟩
  getter := by simp [addition]
  setter := by simp [addition]

theorem inShape_operations (proper : ∀ ty ∈ c.args, r.Proper ty) :
    ∀ op ∈ c.operations, op.InShape := by
  have hstr : r.Proper .str := .builtin (by decide)
  cases c with
  | castableTo target =>
      obtain ⟨nonvoid, concrete⟩ := (proper target List.mem_cons_self).ne
      exact List.forall_mem_singleton.2 (Operation.inShape_ofConversion nonvoid concrete _ _)
  | implicitlyConvertibleTo target =>
      obtain ⟨nonvoid, concrete⟩ := (proper target List.mem_cons_self).ne
      exact List.forall_mem_singleton.2 (Operation.inShape_ofConversion nonvoid concrete _ _)
  | addable input output =>
      have hinput := proper input List.mem_cons_self
      have houtput := proper output (by simp [args])
      exact List.forall_mem_cons.2 ⟨inShape_addition hinput houtput _ _,
        List.forall_mem_singleton.2 (inShape_addition hinput houtput _ _)⟩
  | concatable =>
      exact List.forall_mem_cons.2 ⟨inShape_addition hstr hstr _ _,
        List.forall_mem_singleton.2 (inShape_addition hstr hstr _ _)⟩
  | parsable =>
      exact List.forall_mem_singleton.2 (Operation.fault?_eq_none_iff.1 (by decide))
  | stringable =>
      exact List.forall_mem_singleton.2 (Operation.fault?_eq_none_iff.1 (by decide))

theorem eraseDups_operations (c : StandardContract) : c.operations.eraseDups = c.operations := by
  cases c <;> simp [operations, addition, List.eraseDups_cons]

/-- A standard contract is known by its operations. -/
theorem eq_of_operations (h : c.operations = c'.operations) : c = c' := by
  cases c <;> cases c' <;> simp_all [operations, addition]

/-- What is extracted from a standard contract are its operations, and nothing more. -/
theorem extract_of_type? {s : Registry} {idx : TypeIdx}
    (known : r.type? idx = some (c.definition s)) (proper : ∀ ty ∈ c.args, s.Proper ty) :
    r.extract idx = .ok ⟨idx, c.name s, c.operations⟩ := by
  have hancestry : r.ancestry idx = [idx] :=
    Registry.ancestry_of_parents_eq_nil (Registry.successors_of_known known)
  refine Registry.extract_eq_ok_iff.2 ⟨fun at_ hat => ?_, ?_⟩
  · rw [hancestry] at hat
    obtain rfl := List.mem_singleton.1 hat
    exact ⟨_, known, rfl, rfl, inShape_operations proper⟩
  · rw [hancestry, List.flatMap_singleton, Registry.ownRequired, known,
      Registry.typeName_of_type? known]
    exact congrArg (ContractSpec.mk idx (c.name s)) c.eraseDups_operations.symm

/-- **Standard contracts are faithful to their arguments.** A registry is built up from one without
types, so that all of its contracts are standard ones. Then a standard contract is declared whose
arguments are declared types, or built-in ones that values have; and the registry is built up
further. If by then no class or struct has a reserved name, and if commas in their names, should the
contract have two arguments, stand inside of matching brackets only, then exactly the operations of
the standard contract are extracted from what was declared; and a standard contract that is declared
now, with arguments like that, is the same one if and only if it is the same contract of the same
arguments. -/
theorem faithful_of_declare {r₀ r r' : Registry} {i : TypeIdx} (fresh : r₀.types = #[])
    (past : Relation.ReflTransGen Registry.Builds r₀ r) (declared : outcome c.declare r = .ok i)
    (future : Relation.ReflTransGen Registry.Builds (endState c.declare r) r')
    (legible : r'.Legible c) (proper : ∀ ty ∈ c.args, r.Proper ty) :
    (∃ name, r'.extract i = .ok ⟨i, name, c.operations⟩) ∧
      ∀ (c' : StandardContract) j, r'.Legible c' → (∀ ty ∈ c'.args, r'.Proper ty) →
        outcome c'.declare r' = .ok j → (j = i ↔ c' = c) := by
  have hpremade := (Registry.premade_of_types_eq_empty fresh).steps past
  have hpremade' := (hpremade.step (.declare c)).steps future
  have hupholds : r.Upholds r' :=
    (Registry.Builds.declare c).upholds.trans (Registry.upholds_of_builds future)
  have hknown : r'.type? i = some (c.definition r) := by
    have hfirst := hpremade.type?_of_declare (legible.earlier hupholds) proper declared
    exact Registry.retains_of_builds future i _ hfirst rfl
  refine ⟨⟨_, extract_of_type? hknown proper⟩, fun c' j legible' proper' declared' => ?_⟩
  have hlater := hpremade'.type?_of_declare legible' proper' declared'
  have hkept : (endState c'.declare r').type? i = some (c.definition r) :=
    c'.keeping_declare.retains r' i _ hknown rfl
  constructor
  · rintro rfl
    have hsame := Option.some.inj (hlater.symm.trans hkept)
    exact eq_of_operations (congrArg TypeDef.operations hsame)
  · rintro rfl
    -- Both have the one name that the contract has had all along.
    have hname : c'.name r' = c'.name r := by
      refine name_congr fun ty hty => hupholds.typeName fun idx hidx => Or.inl ?_
      subst hidx
      cases proper _ hty with
      | named known => exact ⟨_, known⟩
    exact (hpremade'.step (.declare c')).distinct hlater hkept hname

/-- Addition of an integer to a crate is declared, and a class after it. It stays what it is; being
castable to that class is another contract. -/
theorem faithful_of_declare_crate :
    let addition : StandardContract := addable (.builtin (.int .i32)) (.named ⟨0⟩)
    let crates := Registry.withClasses ["Crate"]
    let later := endState (Registry.defineType false "Lid" fun _ => {})
      (endState addition.declare crates)
    (∃ name, later.extract ⟨1⟩ = .ok ⟨⟨1⟩, name, addition.operations⟩) ∧
      outcome addition.declare later = .ok ⟨1⟩ ∧
      outcome (castableTo (.named ⟨2⟩)).declare later ≠ .ok ⟨1⟩ := by
  intro addition crates later
  have hnames : ∀ d ∈ later.types, d.isContract = false → d.name = "Crate" ∨ d.name = "Lid" := by
    decide +kernel
  have hlegible : ∀ c : StandardContract, later.Legible c := by
    refine fun c => .of_names fun d hd other => ?_
    rcases hnames d hd other with hname | hname <;> rw [hname]
    · exact ⟨Registry.not_reserved_of_initial rfl (by decide), by decide⟩
    · exact ⟨Registry.not_reserved_of_initial rfl (by decide), by decide⟩
  have hargs : ∀ ty ∈ addition.args, crates.Proper ty :=
    List.forall_mem_cons.2 ⟨.builtin (by decide),
      List.forall_mem_singleton.2 (.of_isSome (by decide +kernel))⟩
  obtain ⟨hextract, hsame⟩ := faithful_of_declare (i := ⟨1⟩) rfl
    (Registry.builds_withClasses ["Crate"]) (by decide +kernel)
    (.single (.define false "Lid" fun _ => {})) (hlegible addition) hargs
  refine ⟨hextract, by decide +kernel, fun hdeclared => ?_⟩
  have hcast := (hsame (castableTo (.named ⟨2⟩)) ⟨1⟩ (hlegible _)
    (List.forall_mem_singleton.2 (.of_isSome (by decide +kernel))) hdeclared).1 rfl
  exact absurd hcast nofun

/-- A class is called like a built-in type, and a comma stands in the names of two others: castable
to the class is castable to the built-in type too, and two pairs of types are one contract. -/
theorem declare_of_same_name :
    let r := Registry.withClasses ["i32", "a, b", "a", "b, c", "c"]
    let toClass := castableTo (.named ⟨0⟩)
    let r₁ := endState toClass.declare r
    let r₂ := endState (addable (.named ⟨1⟩) (.named ⟨4⟩)).declare r₁
    Relation.ReflTransGen Registry.Builds {} r ∧
      outcome toClass.declare r = .ok ⟨5⟩ ∧
      outcome (castableTo (.builtin (.int .i32))).declare r₁ = .ok ⟨5⟩ ∧
      r₁.extract ⟨5⟩ = .ok ⟨⟨5⟩, "CastableTo<i32>", toClass.operations⟩ ∧
      outcome (addable (.named ⟨1⟩) (.named ⟨4⟩)).declare r₁ = .ok ⟨6⟩ ∧
      outcome (addable (.named ⟨2⟩) (.named ⟨3⟩)).declare r₂ = .ok ⟨6⟩ := by
  intro r toClass r₁ r₂
  refine ⟨Registry.builds_withClasses _, by decide +kernel, by decide +kernel, ?_,
    by decide +kernel, by decide +kernel⟩
  rw [Registry.extract, Registry.ancestry_of_parents_eq_nil (by decide +kernel)]
  decide +kernel

end StandardContract

end Contracts
