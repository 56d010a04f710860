import Contracts.Heap
import Contracts.TypeRef

set_option autoImplicit false

/-! # Declarations

What a registry keeps of a declared type. Classes and structs have members with bodies; a contract
has operations that it asks for, and no bodies. -/

namespace Contracts

/-! ## Members -/

/-- A method. -/
structure MethodDef extends Signature where
  name : String
  isStatic : Bool := false
  isPublic : Bool := true
  body : Body

/-- Whether the method has generic parameters. -/
def MethodDef.isGeneric (m : MethodDef) : Bool := !m.generics.isEmpty

/-- A binary operator. -/
structure OperatorDef where
  op : BinaryOp
  left : TypeRef
  right : TypeRef
  ret : TypeRef
  body : Body

/-- A conversion; it may be declared on either of its two types. -/
structure ConversionDef where
  kind : ConversionKind
  source : TypeRef
  target : TypeRef
  body : Body

/-- A property; one without a getter cannot be read, one without a setter not written. -/
structure PropertyDef where
  name : String
  ty : TypeRef
  isPublic : Bool := true
  getter : Option Body
  setter : Option Body

/-- A property that is the field of the same name. -/
def PropertyDef.ofField (name : String) (ty : TypeRef) : PropertyDef where
  name
  ty
  getter := some fun receiver _ => do
    readField (← Eval.ofExcept (receiverObject receiver name)) name
  setter := some fun receiver args => do
    writeField (← Eval.ofExcept (receiverObject receiver name)) name (args.headD .null)
    pure .void

/-- The same property without its setter. -/
def PropertyDef.readOnly (p : PropertyDef) : PropertyDef := { p with setter := none }

/-- The members of one type, each list in declaration order. -/
structure Members where
  methods : List MethodDef := []
  operators : List OperatorDef := []
  conversions : List ConversionDef := []
  properties : List PropertyDef := []

/-- All members of both, those of the first before those of the second. -/
def Members.append (a b : Members) : Members where
  methods := a.methods ++ b.methods
  operators := a.operators ++ b.operators
  conversions := a.conversions ++ b.conversions
  properties := a.properties ++ b.properties

instance : Append Members := ⟨Members.append⟩

/-- The names that the members mention. -/
def Members.names (ms : Members) : List String :=
  ms.methods.flatMap (fun m => m.name :: m.generics.map (·.name)) ++ ms.properties.map (·.name)

/-- A member together with where it was declared: on which type, and as which of its members of
that sort. -/
structure Located (α : Type) where
  owner : ImplType
  position : Nat
  decl : α

/-- The members of one sort with their places. -/
def locate {α : Type} (owner : ImplType) (members : List α) : List (Located α) :=
  members.mapIdx (Located.mk owner)

/-! ## Operations of contracts -/

/-- What an operation asks of the type that is to provide it. -/
inductive OperationKind
  | method
  | staticMethod
  /-- A conversion to the operation's result. -/
  | conversion (kind : ConversionKind)
  /-- An operator with the instance on the given side and the parameter on the other. -/
  | operator (op : BinaryOp) (side : Side)
  /-- Reading the property of the operation's name. -/
  | getter
  /-- Writing the property of the operation's name. -/
  | setter
deriving DecidableEq

/-- The kind of operation in words. -/
def OperationKind.describe : OperationKind → String
  | .method => "method"
  | .staticMethod => "static method"
  | .conversion kind => kind.keyword ++ " conversion"
  | .operator _ _ => "operator"
  | .getter => "property getter"
  | .setter => "property setter"

/-- One operation that a contract asks for. -/
structure Operation extends Signature where
  name : String
  kind : OperationKind
deriving DecidableEq

/-- Whether the operation needs no instance. -/
def Operation.isStatic (op : Operation) : Bool := op.kind = .staticMethod

/-- The names that the operation mentions. -/
def Operation.names (op : Operation) : List String := op.name :: op.generics.map (·.name)

/-! ## Types -/

/-- What a declared type is. -/
inductive TypeKind
  /-- A reference type. -/
  | classType
  /-- A value type. -/
  | structType
  /-- A set of operations to be provided. -/
  | contractType
deriving DecidableEq

/-- The keyword that declares the kind of type. -/
def TypeKind.keyword : TypeKind → String
  | .classType => "class"
  | .structType => "struct"
  | .contractType => "contract"

/-- The part of a declaration that only classes and structs have. -/
structure Implementation where
  base : Option TypeIdx := none
  /-- The contracts that the type implements by name. -/
  implements : List TypeIdx := []
  members : Members := {}

/-- A class or struct with more members and contracts, and with a new base if one is given. -/
def Implementation.extend (impl more : Implementation) : Implementation where
  base := more.base <|> impl.base
  implements := impl.implements ++ more.implements
  members := impl.members ++ more.members

/-- The part of a declaration that only contracts have. -/
structure Requirements where
  parents : List TypeIdx := []
  operations : List Operation := []

/-- The body of a declared type. -/
inductive TypeBody
  | implementation (isStruct : Bool) (impl : Implementation)
  | contract (req : Requirements)

/-- A declared type. -/
structure TypeDef where
  name : String
  isPublic : Bool
  body : TypeBody

namespace TypeDef

/-- What the type is. -/
def kind (d : TypeDef) : TypeKind :=
  match d.body with
  | .implementation isStruct _ => if isStruct then .structType else .classType
  | .contract _ => .contractType

/-- Whether the type is a contract. -/
def isContract (d : TypeDef) : Bool := d.kind = .contractType

/-- The part that classes and structs have; a contract has none of it. -/
def implementation (d : TypeDef) : Implementation :=
  match d.body with
  | .implementation _ impl => impl
  | .contract _ => {}

/-- The part that contracts have; a class or struct has none of it. -/
def requirements (d : TypeDef) : Requirements :=
  match d.body with
  | .implementation _ _ => {}
  | .contract req => req

/-- The base class, if there is one. -/
def base? (d : TypeDef) : Option TypeIdx := d.implementation.base

/-- The contracts that the type implements by name. -/
def implements (d : TypeDef) : List TypeIdx := d.implementation.implements

/-- The members with bodies. -/
def members (d : TypeDef) : Members := d.implementation.members

/-- The parent contracts. -/
def parents (d : TypeDef) : List TypeIdx := d.requirements.parents

/-- The operations asked for, without those of the parents. -/
def operations (d : TypeDef) : List Operation := d.requirements.operations

/-- The types that this one names as its base, its contracts and its parents. -/
def links (d : TypeDef) : List TypeIdx := d.base?.toList ++ d.implements ++ d.parents

end TypeDef

end Contracts
