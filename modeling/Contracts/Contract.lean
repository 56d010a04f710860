import Contracts.Assignability

set_option autoImplicit false

/-! # Contracts as lists of operations

A contract asks for its own operations and for those of its parents. `Registry.extract` lists them
all: contracts in depth-first order, each on first arrival only, and each operation once. It fails
with the first contract or operation in that order that is not in shape. -/

namespace Contracts

/-! ## Shape of an operation -/

/-- What keeps an operation from being provided by any type. -/
inductive OperationFault
  | inconsistentParam (name : String)
  | undeclaredParam
  | voidParam
  | hasParams
  | returnsNothing
  | notOneOperand
  | badGetter
  | badSetter
deriving DecidableEq

/-- The fault in words, after the name of the operation. -/
def OperationFault.message : OperationFault → String
  | .inconsistentParam name =>
      "constrains `" ++ name ++ "` to both reference and value types"
  | .undeclaredParam => "refers to an undeclared generic parameter"
  | .voidParam => "has a void parameter"
  | .hasParams => "must take no parameters"
  | .returnsNothing => "must return a value"
  | .notOneOperand => "must take exactly one operand"
  | .badGetter => "must take no parameters and return a value"
  | .badSetter => "must take one parameter and return void"

namespace Operation

/-- The shape that the kind of operation prescribes for its parameters and result. -/
def kindFault? (op : Operation) : Option OperationFault :=
  match op.kind with
  | .method | .staticMethod => none
  | .conversion _ =>
      if op.params ≠ [] then some .hasParams
      else if op.ret.isVoid then some .returnsNothing
      else none
  | .operator _ _ => if op.params.length ≠ 1 then some .notOneOperand else none
  | .getter => if op.params ≠ [] ∨ op.ret.isVoid then some .badGetter else none
  | .setter => if op.params.length ≠ 1 ∨ !op.ret.isVoid then some .badSetter else none

/-- Whether a type is a generic parameter that the operation does not declare. -/
def isUndeclared (op : Operation) : TypeRef → Bool
  | .param i => op.generics.length ≤ i
  | _ => false

/-- The first fault of an operation. -/
def fault? (op : Operation) : Option OperationFault :=
  match op.generics.find? (!·.isConsistent) with
  | some p => some (.inconsistentParam p.name)
  | none =>
      if (op.params ++ [op.ret]).any op.isUndeclared then some .undeclaredParam
      else if op.params.any (·.isVoid) then some .voidParam
      else op.kindFault?

/-- The operation as messages write it. -/
def text (r : Registry) (op : Operation) : String :=
  let head := match op.kind with
    | .operator symbol side =>
        let other := match op.params with
          | [] => "?"
          | ty :: _ => r.typeName ty
        let (left, right) := side.arrange "self" other
        s!"{op.name}: {left} {symbol.symbol} {right}"
    | _ => op.name ++ "(" ++ ", ".intercalate (op.params.map r.typeName) ++ ")"
  if op.ret.isVoid then head else head ++ " -> " ++ r.typeName op.ret

end Operation

/-- Why a type and a contract cannot be matched. -/
inductive ShapeError
  | unknownType (idx : TypeIdx)
  | notContract (name : String) (kind : TypeKind)
  | hiddenContract (name : String)
  | hiddenType (name : String)
  | badOperation (kind : OperationKind) (name contract : String) (fault : OperationFault)
deriving DecidableEq

/-- The error in words. -/
def ShapeError.reason : ShapeError → String
  | .unknownType idx => s!"no type is registered at index {idx.index}"
  | .notContract name kind => s!"{name} is a {kind.keyword}, not a contract"
  | .hiddenContract name => s!"contract {name} is not public"
  | .hiddenType name => s!"{name} is not public"
  | .badOperation kind name contract fault =>
      kind.describe ++ " `" ++ name ++ "` of " ++ contract ++ " " ++ fault.message

/-! ## Extraction -/

/-- A contract with everything it asks for. -/
structure ContractSpec where
  contract : TypeIdx
  name : String
  operations : List Operation
deriving DecidableEq

/-- Whether no operation needs an instance; so it is if there is no operation. -/
def ContractSpec.isStaticOnly (spec : ContractSpec) : Bool := spec.operations.all (·.isStatic)

namespace Registry

/-- The parents of a contract. -/
def parents (r : Registry) : TypeIdx → List TypeIdx := r.successors TypeDef.parents

/-- A contract and its ancestors, each before its parents and on first arrival only. -/
def ancestry (r : Registry) (idx : TypeIdx) : List TypeIdx := r.walk TypeDef.parents [] [idx]

/-- The operations that a contract itself asks for, if it is a public contract and all of them are
in shape. -/
def ownOperations (r : Registry) (idx : TypeIdx) : Except ShapeError (List Operation) :=
  match r.type? idx with
  | none => .error (.unknownType idx)
  | some decl =>
      if !decl.isContract then .error (.notContract decl.name decl.kind)
      else if !decl.isPublic then .error (.hiddenContract decl.name)
      else
        match decl.operations.findSome? fun op => op.fault?.map (op, ·) with
        | some (op, fault) => .error (.badOperation op.kind op.name decl.name fault)
        | none => .ok decl.operations

/-- Everything that a contract asks for, in order and each operation once. -/
def extract (r : Registry) (idx : TypeIdx) : Except ShapeError ContractSpec := do
  let operations ← (r.ancestry idx).mapM r.ownOperations
  pure ⟨idx, r.typeName (.named idx), operations.flatten.eraseDups⟩

end Registry

end Contracts
