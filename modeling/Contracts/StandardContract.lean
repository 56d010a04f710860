import Contracts.Provider

set_option autoImplicit false

/-! # Standard contracts and dynamic conversion

Contracts that come up everywhere: being convertible to a type, being addable, having a text. Each
is declared under a name made from its type arguments when it is first needed. A value converts to
a type through the two contracts that ask for a conversion to it. -/

namespace Contracts

/-- A standard contract with its type arguments. -/
inductive StandardContract
  /-- An explicit conversion to a type. -/
  | castableTo (target : TypeRef)
  /-- An implicit conversion to a type. -/
  | implicitlyConvertibleTo (target : TypeRef)
  /-- Addition of a type on either side. -/
  | addable (input output : TypeRef)
  /-- Joining with text on either side. -/
  | concatable
  /-- Making a value from text. -/
  | parsable
  /-- Having a text. -/
  | stringable
deriving DecidableEq

namespace StandardContract

/-- The name that the contract is declared under. -/
def name (r : Registry) : StandardContract → String
  | .castableTo target => s!"CastableTo<{r.typeName target}>"
  | .implicitlyConvertibleTo target => s!"ImplicitlyConvertibleTo<{r.typeName target}>"
  | .addable input output => s!"Addable<{r.typeName input}, {r.typeName output}>"
  | .concatable => "Concatable"
  | .parsable => "Parsable"
  | .stringable => "Stringable"

/-- Addition of an operand on one side. -/
def addition (name : String) (side : Side) (input output : TypeRef) : Operation where
  name
  kind := .operator .add side
  params := [input]
  ret := output

/-- The operations that the contract asks for. -/
def operations : StandardContract → List Operation
  | .castableTo target =>
      [{ name := "cast", kind := .conversion .explicit, params := [], ret := target }]
  | .implicitlyConvertibleTo target =>
      [{ name := "convert", kind := .conversion .implicit, params := [], ret := target }]
  | .addable input output =>
      [addition "add" .left input output, addition "add_from_left" .right input output]
  | .concatable => [addition "concat" .left .str .str, addition "prepend" .right .str .str]
  | .parsable => [{ name := "parse", kind := .staticMethod, params := [.str], ret := .object }]
  | .stringable => [{ name := "to_string", kind := .method, params := [], ret := .str }]

/-- The contract, declared now unless it has been before. -/
def declare (c : StandardContract) : Registry.Change TypeIdx := do
  let r ← get
  Registry.contractOrDeclare (c.name r) fun _ => { operations := c.operations }

/-- The contract, if it has been declared. -/
def find? (c : StandardContract) (r : Registry) : Option TypeIdx := r.contractByName? (c.name r)

end StandardContract

/-! ## Dynamic conversion -/

/-- What a dynamic conversion works on: it may declare contracts, and it runs a member. -/
structure World where
  registry : Registry := {}
  heap : Heap := .empty
  provider : Provider.State := {}

namespace World

/-- An action on the world. What it did before failing stays done. -/
abbrev Action (α : Type) := EStateM ContractError World α

/-- Change the registry. -/
def declare {α : Type} (change : Registry.Change α) : Action α := fun w =>
  match change w.registry with
  | .ok a registry => .ok a { w with registry }
  | .error e registry => .error (.registry e) { w with registry }

/-- Ask the provider. -/
def ask {α : Type} (call : Registry → Provider.Call α) : Action α := fun w =>
  match call w.registry w.provider with
  | .ok a provider => .ok a { w with provider }
  | .error e provider => .error e { w with provider }

/-- Run a member. -/
def eval {α : Type} (run : Registry → Eval α) : Action α := fun w =>
  match run w.registry w.heap with
  | .ok a heap => .ok a { w with heap }
  | .error e heap => .error (.eval e) { w with heap }

/-- The contracts of explicit and of implicit conversion to a type. The registry is left alone if
both are there. -/
def conversionContracts (target : TypeRef) : Action (TypeIdx × TypeIdx) := do
  let explicit := StandardContract.castableTo target
  let implicit := StandardContract.implicitlyConvertibleTo target
  let r := (← get).registry
  match explicit.find? r, implicit.find? r with
  | some e, some i => pure (e, i)
  | _, _ => declare do pure (← explicit.declare, ← implicit.declare)

variable (config : Config)

/-- Whether a value has an explicit or implicit conversion to a type. -/
def canConvertTo (v : Value) (target : TypeRef) : Action Bool := do
  let (explicit, implicit) ← conversionContracts target
  if ← ask fun r => Provider.satisfies r config v explicit then pure true
  else ask fun r => Provider.satisfies r config v implicit

/-- Convert through a contract by calling its one operation. -/
def convertThrough (v : Value) (contract : TypeIdx) (operation : String) : Action Value := do
  let a ← ask fun r => Provider.convert r config v contract
  eval fun r => a.call r operation []

/-- Convert a value to a type, explicitly if it can be, and else implicitly. -/
def convertTo (v : Value) (target : TypeRef) : Action Value := do
  let (explicit, implicit) ← conversionContracts target
  if ← ask fun r => Provider.satisfies r config v explicit then
    convertThrough config v explicit "cast"
  else if ← ask fun r => Provider.satisfies r config v implicit then
    convertThrough config v implicit "convert"
  else if v.runtimeType?.isNone then throw (.noRuntimeType v)
  else
    let r := (← get).registry
    throw (.noConversion (r.valueTypeName v) (r.typeName target))

end World

end Contracts
