import Contracts.Coercion
import Contracts.Contract
import Contracts.Primitive
import Contracts.Unification

set_option autoImplicit false

/-! # Matching types against contracts

Each operation of a contract is bound to something that a type has, on its own: a method, a
conversion, an operator, a property, or a primitive operation. An operation that nothing can be
bound to is an issue; a type satisfies a contract if there is no issue. -/

namespace Contracts

/-- What a matcher may make use of. -/
structure Config where
  /-- Let methods with less derived parameters stand in. -/
  substituteParams : Bool := false
  /-- Use the primitive conversions and operators. -/
  usePrimitives : Bool := true
  /-- Look for operators on the type of the other operand too. -/
  searchOperands : Bool := true
deriving DecidableEq

/-- What an operation is bound to. -/
inductive Target
  | method (m : Located MethodDef)
  | conversion (c : Located ConversionDef)
  /-- The conversion of a value to its own type. -/
  | identity
  | operator (o : Located OperatorDef)
  | primitive (p : Primitive)
  | property (p : PropertyDef)

/-- An operation with its target, and what happens to the values on their way. -/
structure Binding where
  operation : Operation
  target : Target
  /-- The instance on its way to its place as an operand. -/
  receiver : Coercion := .identity
  /-- The arguments on their way to the target's parameters. -/
  args : List Coercion := []
  /-- The target's result on its way to the operation's. -/
  ret : Coercion := .identity

/-- The number of coercions that do something. -/
def Binding.cost (b : Binding) : Nat :=
  (b.receiver :: (b.args ++ [b.ret])).countP (!·.isIdentity)

/-- An operation that nothing could be bound to. -/
structure Issue where
  operation : String
  kind : OperationKind
  signature : String
  typeName : String
deriving DecidableEq

/-- The issue in words. -/
def Issue.message (i : Issue) : String :=
  i.typeName ++ " has no " ++ i.kind.describe ++ " matching `" ++ i.signature ++ "`"

/-- How a type does against a contract. Names are those at the time of the match. -/
structure MatchResult where
  implType : ImplType
  typeName : String
  contract : TypeIdx
  contractName : String
  satisfied : Bool
  staticOnly : Bool
  bindings : List Binding
  issues : List Issue

namespace Registry

/-- The coercion of a result, which is absent on both sides or on neither. -/
def resultCoercion? (r : Registry) (source target : TypeRef) : Option Coercion :=
  if source.isVoid ∨ target.isVoid then if source = target then some .identity else none
  else r.coercion? source target

/-! ## Methods -/

/-- Bind a method operation to a method. -/
def bindMethod? (r : Registry) (op : Operation) (m : Located MethodDef) : Option Binding := do
  let args ← (op.params.zip m.decl.params).mapM fun (source, target) => r.coercion? source target
  let ret ← r.resultCoercion? m.decl.ret op.ret
  pure { operation := op, target := .method m, args, ret }

/-- The first of the methods that cost the least. -/
def resolveMethod (r : Registry) (config : Config) (ty : ImplType) (op : Operation)
    (filter : MethodFilter) : Option Binding :=
  let found := r.unifyingMethods ty op.name op.toSignature filter config.substituteParams
  (found.filterMap (r.bindMethod? op)).minOn? Binding.cost

/-! ## Conversions -/

/-- The first declared conversion to exactly the wanted type, else the primitive one, else the
value itself. -/
def resolveConversion (r : Registry) (config : Config) (ty : ImplType) (op : Operation)
    (kind : ConversionKind) : Option Binding :=
  match (r.conversions ty kind).find? (·.decl.target = op.ret) with
  | some c => some { operation := op, target := .conversion c }
  | none =>
      match
        if config.usePrimitives then Primitive.findConversion? kind ty.toRef op.ret else none
      with
      | some p => some { operation := op, target := .primitive p }
      | none => if op.ret = ty.toRef then some { operation := op, target := .identity } else none

/-! ## Operators -/

/-- The coercions of the instance and of the other operand into an operator's operands. -/
def operandCoercions? (r : Registry) (side : Side) (this other left right : TypeRef) :
    Option (Coercion × Coercion) := do
  let (placeOfThis, placeOfOther) := side.arrange left right
  let receiver ← r.coercion? this placeOfThis
  let arg ← r.coercion? other placeOfOther
  pure (receiver, arg)

/-- Bind an operator operation to a target with the given operand and result types. -/
def bindOperator? (r : Registry) (op : Operation) (side : Side) (this other : TypeRef)
    (target : Target) (left right result : TypeRef) : Option Binding := do
  let (receiver, arg) ← r.operandCoercions? side this other left right
  let ret ← r.resultCoercion? result op.ret
  pure { operation := op, target, receiver, args := [arg], ret }

/-- The first of an owner's operators that cost the least. -/
def resolveDeclared (r : Registry) (op : Operation) (symbol : BinaryOp) (side : Side)
    (this other : TypeRef) (owner : ImplType) : Option Binding :=
  ((r.operators owner (some symbol)).filterMap fun o =>
    r.bindOperator? op side this other (.operator o) o.decl.left o.decl.right o.decl.ret).minOn?
      Binding.cost

/-- The types on which operators are looked for: the type itself, and the other operand's if that
is another declared type. -/
def operatorOwners (config : Config) (ty : ImplType) (other : TypeRef) : List ImplType :=
  match other with
  | .named idx =>
      if config.searchOperands ∧ ImplType.named idx ≠ ty then [ty, .named idx] else [ty]
  | _ => [ty]

/-- An operator of the first owner that has one, else the primitive one. -/
def resolveOperator (r : Registry) (config : Config) (ty : ImplType) (op : Operation)
    (symbol : BinaryOp) (side : Side) : Option Binding := do
  let this := ty.toRef
  let other ← op.params.head?
  match (operatorOwners config ty other).findSome?
      (r.resolveDeclared op symbol side this other) with
  | some b => pure b
  | none =>
      if config.usePrimitives then
        let (left, right) := side.arrange this other
        let p ← Primitive.findOperator? r symbol left right op.ret
        let second ← p.right?
        r.bindOperator? op side this other (.primitive p) (.builtin p.left) (.builtin second)
          (.builtin p.result)
      else none

/-! ## Properties -/

/-- The property of the operation's name, if it can be read as the wanted type. -/
def resolveGetter (r : Registry) (ty : ImplType) (op : Operation) : Option Binding := do
  let p ← r.property? ty op.name
  if p.getter.isSome then
    let ret ← r.coercion? p.ty op.ret
    pure { operation := op, target := .property p, ret }
  else none

/-- The property of the operation's name, if the parameter can be written to it. -/
def resolveSetter (r : Registry) (ty : ImplType) (op : Operation) : Option Binding := do
  let p ← r.property? ty op.name
  if p.setter.isSome then
    let param ← op.params.head?
    let arg ← r.coercion? param p.ty
    pure { operation := op, target := .property p, args := [arg] }
  else none

/-! ## Whole contracts -/

/-- Bind one operation. -/
def resolve (r : Registry) (config : Config) (ty : ImplType) (op : Operation) : Option Binding :=
  match op.kind with
  | .method => r.resolveMethod config ty op .onInstance
  | .staticMethod => r.resolveMethod config ty op .onType
  | .conversion kind => r.resolveConversion config ty op kind
  | .operator symbol side => r.resolveOperator config ty op symbol side
  | .getter => r.resolveGetter ty op
  | .setter => r.resolveSetter ty op

/-- The issue of an operation that a type does not provide. -/
def issue (r : Registry) (ty : ImplType) (op : Operation) : Issue where
  operation := op.name
  kind := op.kind
  signature := op.text r
  typeName := r.typeName ty.toRef

/-- Match a type against a contract. -/
def matchSpec (r : Registry) (config : Config) (ty : ImplType) (spec : ContractSpec) :
    MatchResult :=
  let bindings := spec.operations.filterMap (r.resolve config ty)
  let issues := (spec.operations.filter fun op => (r.resolve config ty op).isNone).map (r.issue ty)
  { implType := ty
    typeName := r.typeName ty.toRef
    contract := spec.contract
    contractName := spec.name
    satisfied := issues.isEmpty && bindings.length == spec.operations.length
    staticOnly := spec.isStaticOnly
    bindings
    issues }

end Registry

end Contracts
