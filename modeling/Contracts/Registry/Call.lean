import Contracts.Registry

set_option autoImplicit false

/-! # Calls that change a registry

The ways in which a registry is changed, as data that can be looked at before they are made.
`Registry.perform` is a call as a program sees it: it succeeds, it fails with an error, or it comes
to a name for which there is no slot, and then the program gives up and there is no registry to go
on with. -/

namespace Contracts

namespace Registry

/-- A call that declares or extends something. -/
inductive Call
  | defineType (isStruct : Bool) (name : String) (decl : TypeRef → ImplementationDecl)
  | defineContract (name : String) (decl : TypeRef → ContractDecl)
  | contractOrDeclare (name : String) (decl : TypeRef → ContractDecl)
  | extendType (idx : TypeIdx) (decl : TypeRef → ImplementationDecl)
  | extendBuiltin (b : Builtin) (decl : TypeRef → ImplementationDecl)

namespace Call

/-- What a call does. A declaration answers where the type is. -/
def run : Call → Change (Option TypeIdx)
  | .defineType isStruct name decl => do return some (← Registry.defineType isStruct name decl)
  | .defineContract name decl => do return some (← Registry.defineContract name decl)
  | .contractOrDeclare name decl => do return some (← Registry.contractOrDeclare name decl)
  | .extendType idx decl => do
      Registry.extendType idx decl
      return none
  | .extendBuiltin b decl => do
      modify (·.extendBuiltin b decl)
      return none

/-- The name and the kind of the type that is asked for. -/
def declaration? : Call → Option (String × TypeKind)
  | .defineType isStruct name _ => some (name, if isStruct then .structType else .classType)
  | .defineContract name _ | .contractOrDeclare name _ => some (name, .contractType)
  | .extendType _ _ | .extendBuiltin _ _ => none

/-- The names that the declaration of a call mentions if it is made for a type at a position. An
extension is made for the type that is extended. -/
def mentions (self : TypeIdx) : Call → List String
  | .defineType _ _ decl => (decl (.named self)).members.names
  | .defineContract _ decl | .contractOrDeclare _ decl =>
      (decl (.named self)).operations.flatMap (·.names)
  | .extendType idx decl => (decl (.named idx)).members.names
  | .extendBuiltin b decl => (decl (.builtin b)).members.names

/-- The names that a call enters into the name table: that of the type that is to be declared, even
if there is one of that name, and those that the declaration mentions once it is applied. -/
def enters (r : Registry) (call : Call) : List String :=
  let defining (name : String) : List String :=
    if (r.byName? name).isNone ∧ r.types.size < UInt32.size then
      name :: call.mentions ⟨r.types.size⟩
    else [name]
  match call with
  | .defineType _ name _ | .defineContract name _ => defining name
  | .contractOrDeclare name _ => if (r.byName? name).isNone then defining name else []
  | .extendType idx _ => if (r.type? idx).any (!·.isContract) then call.mentions idx else []
  | .extendBuiltin _ _ => call.mentions ⟨0⟩

end Call

/-- A call as a program sees it, which gives up if there is no slot for a name. -/
def perform (r : Registry) (call : Call) :
    Except ShardOverflow (EStateM.Result RegistryError Registry (Option TypeIdx)) := do
  let _ ← r.names.tryInternMany (call.enters r)
  return call.run r

/-- The registry after some calls, unless the program has to give up. -/
def performAll (r : Registry) : List Call → Except ShardOverflow Registry
  | [] => .ok r
  | call :: rest => do
      match ← r.perform call with
      | .ok _ r' | .error _ r' => r'.performAll rest

end Registry

end Contracts
