import Contracts.Builtin
import Contracts.Operator

set_option autoImplicit false

/-! # References to types

Member signatures mention built-in types, types declared in a registry, and the generic
parameters of the method they belong to. -/

namespace Contracts

/-- The position of a type among the declared types of a registry. -/
structure TypeIdx where
  index : Nat
deriving DecidableEq

/-- A concrete type: one that values have and adapters are built for. -/
inductive ImplType
  | builtin (b : Builtin)
  | named (idx : TypeIdx)
deriving DecidableEq

/-- A type as a signature mentions it. -/
inductive TypeRef
  | builtin (b : Builtin)
  | named (idx : TypeIdx)
  /-- A position in the generic parameter list of the method. -/
  | param (i : Nat)
deriving DecidableEq

/-- The reference to a concrete type. -/
def ImplType.toRef : ImplType → TypeRef
  | .builtin b => .builtin b
  | .named idx => .named idx

namespace TypeRef

/-- The type of no value. -/
abbrev void : TypeRef := .builtin .void
/-- The top type. -/
abbrev object : TypeRef := .builtin .object
/-- Text. -/
abbrev str : TypeRef := .builtin .str
/-- Truth values. -/
abbrev bool : TypeRef := .builtin .bool

/-- Whether this is `void`. -/
def isVoid (ty : TypeRef) : Bool := ty = .void

/-- Whether this is a generic parameter. -/
def isParam : TypeRef → Bool
  | .param _ => true
  | _ => false

/-- The concrete type, unless this is a generic parameter. -/
def toImpl? : TypeRef → Option ImplType
  | .builtin b => some (.builtin b)
  | .named idx => some (.named idx)
  | .param _ => none

end TypeRef

/-! ## Generic parameters -/

/-- A demand on the arguments of a generic parameter. -/
inductive Constraint
  /-- Only reference types. -/
  | reference
  /-- Only value types. -/
  | value
  /-- Only types assignable to the bound. -/
  | bound (ty : TypeRef)
deriving DecidableEq

/-- A generic parameter of a method. -/
structure GenericParam where
  name : String
  constraints : List Constraint
deriving DecidableEq

/-- No type is both a reference type and a value type. -/
def GenericParam.isConsistent (p : GenericParam) : Bool :=
  !(p.constraints.contains .reference && p.constraints.contains .value)

/-- The types that a call of a method goes by: its parameters, its result, and the generic
parameters that these mention. -/
structure Signature where
  params : List TypeRef
  ret : TypeRef
  generics : List GenericParam := []
deriving DecidableEq

/-- The number of parameters. -/
def Signature.arity (s : Signature) : Nat := s.params.length

end Contracts
