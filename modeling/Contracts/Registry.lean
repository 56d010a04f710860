import Contracts.Declaration
import Contracts.NameTable

set_option autoImplicit false

/-! # Registries

A `Registry` knows the declared types by position and by name, and the members attached to built-in
types. Declared names are distinct: a second declaration under a name fails and changes no type. A
declared type can be extended by members, which are appended, but never removed. -/

namespace Contracts

/-- The declared types and the members of built-in ones. A type is looked up by searching for its
name; an index from names to positions, filled as types are declared, would find the same one
(`Registry.byName?_of_performAll`). -/
structure Registry where
  names : NameTable := .new
  types : Array TypeDef := #[]
  builtinMembers : Builtin → Option Members := fun _ => none

/-- Why a declaration failed. -/
inductive RegistryError
  | duplicateType (name : String)
  | unknownType (idx : TypeIdx)
  | tooManyTypes
  | wrongKind (name expected : String) (found : TypeKind)
deriving DecidableEq

/-- The code of an error: the cause without its particulars. -/
def RegistryError.code : RegistryError → String
  | .duplicateType _ => "DuplicateType"
  | .unknownType _ => "UnknownType"
  | .tooManyTypes => "TooManyTypes"
  | .wrongKind _ _ _ => "WrongKind"

/-- The message of an error. -/
def RegistryError.message : RegistryError → String
  | .duplicateType name => "type `" ++ name ++ "` is already declared"
  | .unknownType idx => s!"no type is registered at index {idx.index}"
  | .tooManyTypes => "type index space exhausted"
  | .wrongKind name expected found =>
      "`" ++ name ++ "` is a " ++ found.keyword ++ ", expected a " ++ expected

namespace Registry

/-- The registry with no declared types and no members. -/
def empty : Registry := {}

/-! ## Looking up -/

/-- The declared type at a position. -/
def type? (r : Registry) (idx : TypeIdx) : Option TypeDef := r.types[idx.index]?

/-- The position of the type declared under a name. -/
def byName? (r : Registry) (name : String) : Option TypeIdx :=
  (r.types.findIdx? (·.name == name)).map TypeIdx.mk

/-- The position of the contract declared under a name. -/
def contractByName? (r : Registry) (name : String) : Option TypeIdx := do
  let idx ← r.byName? name
  let decl ← r.type? idx
  if decl.isContract then some idx else none

/-- The members that a type itself has, if any were ever attached. -/
def members? (r : Registry) : ImplType → Option Members
  | .builtin b => r.builtinMembers b
  | .named idx => (r.type? idx).map (·.members)

/-- The walk along base links from a type, for at most `steps` links. -/
def baseWalk (r : Registry) : Nat → TypeIdx → List (TypeIdx × TypeDef)
  | steps, idx =>
      match r.type? idx with
      | none => []
      | some decl =>
          (idx, decl) :: match steps, decl.base? with
            | steps + 1, some base => r.baseWalk steps base
            | _, _ => []

/-- The type, its base, the base of that, and so on. A chain without a cycle has fewer links than
there are types, so only a cycle is cut short. -/
def baseChain (r : Registry) (idx : TypeIdx) : List (TypeIdx × TypeDef) :=
  r.baseWalk r.types.size idx

/-- Whether the type may be used from outside; built-in types always may. -/
def isPublic (r : Registry) : ImplType → Bool
  | .builtin _ => true
  | .named idx => (r.type? idx).any (·.isPublic)

/-- Whether values of the type are copied rather than shared. -/
def isValueType (r : Registry) : TypeRef → Bool
  | .builtin b => b.isValueType
  | .named idx => (r.type? idx).any (·.kind = .structType)
  | .param _ => false

/-- The name of a type in messages. -/
def typeName (r : Registry) : TypeRef → String
  | .builtin b => b.name
  | .named idx =>
      match r.type? idx with
      | some decl => decl.name
      | none => s!"<type {idx.index}>"
  | .param i => s!"T{i}"

/-- The name of a value's type in messages. -/
def valueTypeName (r : Registry) (v : Value) : String :=
  match v.runtimeType? with
  | some ty => r.typeName ty.toRef
  | none => v.typeName

/-! ## Declaring -/

/-- A change of the registry, which may fail. -/
abbrev Change (α : Type) := EStateM RegistryError Registry α

/-- Enter names into the name table. One for which there is no slot is passed over; a program that
comes to such a name gives up (`Registry.perform`). -/
def intern (r : Registry) (names : List String) : Registry :=
  { r with names := r.names.insertMany names }

/-- What is said when a class or struct is declared or extended. -/
structure ImplementationDecl extends Implementation where
  /-- Hide the type from outside. -/
  isHidden : Bool := false

/-- What is said when a contract is declared. -/
structure ContractDecl extends Requirements where
  /-- Hide the contract from outside. -/
  isHidden : Bool := false

/-- A class or struct with all that a declaration says of it in addition. -/
def ImplementationDecl.addTo (decl : ImplementationDecl) (d : TypeDef) : TypeDef :=
  match d.body with
  | .contract _ => d
  | .implementation isStruct impl =>
      { d with
        isPublic := d.isPublic && !decl.isHidden
        body := .implementation isStruct (impl.extend decl.toImplementation) }

/-- A type as the contract that a declaration says it is. -/
def ContractDecl.setIn (decl : ContractDecl) (d : TypeDef) : TypeDef :=
  { d with isPublic := !decl.isHidden, body := .contract decl.toRequirements }

/-- Put a type at the next position. -/
def push (d : TypeDef) : Change Unit :=
  modify fun r => { r with types := r.types.push d }

/-- Change the type at a position. -/
def alter (idx : TypeIdx) (f : TypeDef → TypeDef) : Change Unit :=
  modify fun r => { r with types := r.types.modify idx.index f }

/-- Take the next position for a type of a new name. There is a type without anything at it until
the declaration is applied, which is made for the position but without looking at the registry. -/
def reserve (name : String) (body : TypeBody) : Change TypeIdx := do
  modify (·.intern [name])
  let r ← get
  if (r.byName? name).isSome then throw (.duplicateType name)
  else if r.types.size < UInt32.size then
    push ⟨name, true, body⟩
    pure ⟨r.types.size⟩
  else throw .tooManyTypes

/-- Declare a class or a struct. The declaration may refer to the type itself. -/
def defineType (isStruct : Bool) (name : String) (decl : TypeRef → ImplementationDecl) :
    Change TypeIdx := do
  let idx ← reserve name (.implementation isStruct {})
  let decl := decl (.named idx)
  modify (·.intern decl.members.names)
  alter idx decl.addTo
  pure idx

/-- Declare a contract. The declaration may refer to the contract itself. -/
def defineContract (name : String) (decl : TypeRef → ContractDecl) : Change TypeIdx := do
  let idx ← reserve name (.contract {})
  let decl := decl (.named idx)
  modify (·.intern (decl.operations.flatMap (·.names)))
  alter idx decl.setIn
  pure idx

/-- The contract of a name, declared now if there is no type of that name. -/
def contractOrDeclare (name : String) (decl : TypeRef → ContractDecl) : Change TypeIdx := do
  let r ← get
  match r.byName? name with
  | none => defineContract name decl
  | some idx =>
      match r.type? idx with
      | none => throw (.unknownType idx)
      | some found =>
          if found.isContract then pure idx
          else throw (.wrongKind name TypeKind.contractType.keyword found.kind)

/-- Extend a declared class or struct. -/
def extendType (idx : TypeIdx) (decl : TypeRef → ImplementationDecl) : Change Unit := do
  let r ← get
  match r.type? idx with
  | none => throw (.unknownType idx)
  | some old =>
      if old.isContract then throw (.wrongKind old.name "class or struct" old.kind)
      else
        let decl := decl (.named idx)
        modify (·.intern decl.members.names)
        alter idx decl.addTo

/-- Attach members to a built-in type; it has no base, contracts or visibility to change. -/
def extendBuiltin (r : Registry) (b : Builtin) (decl : TypeRef → ImplementationDecl) : Registry :=
  let members := (decl (.builtin b)).members
  let extended := (r.builtinMembers b).getD {} ++ members
  let r := r.intern members.names
  { r with builtinMembers := fun c => if c = b then some extended else r.builtinMembers c }

end Registry

end Contracts
