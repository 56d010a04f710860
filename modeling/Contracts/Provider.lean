import Contracts.Cache

set_option autoImplicit false

/-! # Providers

A provider matches types against contracts on demand and hands out adapters. It remembers what it
has found out: a result is not revisited when the registry changes, until the cache is cleared.
Adapter types are numbered by one counter for all providers. -/

namespace Contracts

/-- Why a provider could not do what it was asked for. -/
inductive ContractError
  | shape (e : ShapeError)
  /-- The type lacks operations of the contract. -/
  | unsatisfied (typeName contract : String) (issues : List Issue)
  /-- An adapter without an instance, for a contract that needs one. -/
  | instanceRequired (contract : String)
  /-- The value is an instance of no type. -/
  | noRuntimeType (v : Value)
  /-- The value has neither an explicit nor an implicit conversion. -/
  | noConversion (source target : String)
  | registry (e : RegistryError)
  | eval (e : EvalError)
deriving DecidableEq

/-- The code of an error: the cause without its particulars. -/
def ContractError.code : ContractError → String
  | .shape _ => "InvalidContractShape"
  | .unsatisfied _ _ _ => "ContractUnsatisfied"
  | .instanceRequired _ => "NullInstanceWithoutStaticOnlyContract"
  | .noRuntimeType _ => "NoRuntimeType"
  | .noConversion _ _ => "NoConversion"
  | .registry e => e.code
  | .eval e => e.code

/-- The message of an error. -/
def ContractError.message : ContractError → String
  | .shape e => s!"invalid contract shape: {e.reason}"
  | .unsatisfied typeName contract issues =>
      s!"{typeName} does not satisfy {contract}: " ++ "; ".intercalate (issues.map (·.message))
  | .instanceRequired contract =>
      s!"contract {contract} has instance operations; an instance is required"
  | .noRuntimeType v => "`" ++ v.display ++ "` has no runtime type"
  | .noConversion source target => s!"no conversion from {source} to {target}"
  | .registry e => e.message
  | .eval e => e.message

/-- A provider: how it matches, and what it has found out. -/
structure Provider where
  config : Config
  cache : Cache := {}

namespace Provider

/-- What a call on a provider works on: the provider's cache, and the next number for an adapter
type. A number of 64 bits would come up again once 2 ^ 64 adapter types have been made, and is this
one until then. -/
structure State where
  cache : Cache := {}
  nextId : Nat := 1

/-- A call on a provider. What it found out before failing is remembered. -/
abbrev Call (α : Type) := EStateM ContractError State α

variable (r : Registry) (config : Config)

/-- Match a type against a contract without the cache. -/
def computeMatch (ty : ImplType) (contract : TypeIdx) : Except ContractError MatchResult :=
  if !r.isPublic ty then .error (.shape (.hiddenType (r.typeName ty.toRef)))
  else
    match r.extract contract with
    | .error e => .error (.shape e)
    | .ok spec => .ok (r.matchSpec config ty spec)

/-- What is known about a type and a contract, after finding it out if nothing is. -/
def lookup (ty : ImplType) (contract : TypeIdx) : Call CacheEntry := do
  let s ← get
  match s.cache.find? ⟨ty, contract⟩ with
  | some entry =>
      set { s with cache := s.cache.countHit }
      pure entry
  | none =>
      match computeMatch r config ty contract with
      | .error e => throw e
      | .ok result =>
          let (entry, cache) := s.cache.recordMatch ⟨ty, contract⟩ result
          set { s with cache }
          pure entry

/-- Whether a type satisfies a contract. -/
def check (ty : ImplType) (contract : TypeIdx) : Call Bool := do
  match ← lookup r config ty contract with
  | .adapter _ => pure true
  | .matched result => pure result.satisfied

/-- Whether a value's type satisfies a contract. Values without a type satisfy none. -/
def satisfies (v : Value) (contract : TypeIdx) : Call Bool :=
  match v.runtimeType? with
  | some ty => check r config ty contract
  | none => pure false

/-- The result of matching a type against a contract, whether satisfied or not. -/
def explain (ty : ImplType) (contract : TypeIdx) : Call MatchResult := do
  pure (← lookup r config ty contract).result

/-- Make the adapter type of a satisfied match and publish it. -/
def synthesize (key : CacheKey) (result : MatchResult) : Call AdapterType := do
  let s ← get
  let (a, cache) := s.cache.publish key (.synthesize s.nextId result)
  set ({ cache, nextId := s.nextId + 1 } : State)
  pure a

/-- The adapter type for a type and a contract, made on first use. -/
def adapterType (ty : ImplType) (contract : TypeIdx) : Call AdapterType := do
  match ← lookup r config ty contract with
  | .adapter a => pure a
  | .matched result =>
      if result.satisfied then synthesize ⟨ty, contract⟩ result
      else throw (.unsatisfied result.typeName result.contractName result.issues)

/-- See a value through a contract. -/
def convert (v : Value) (contract : TypeIdx) : Call Adapter :=
  match v.runtimeType? with
  | none => throw (.noRuntimeType v)
  | some ty => do pure ⟨← adapterType r config ty contract, some v⟩

/-- An adapter without an instance, for a contract of static methods only. -/
def convertStatic (ty : ImplType) (contract : TypeIdx) : Call Adapter := do
  let result := (← lookup r config ty contract).result
  if !result.staticOnly then throw (.instanceRequired result.contractName)
  else pure ⟨← adapterType r config ty contract, none⟩

/-- Forget every match and adapter type. -/
def clearCache : Call Unit := modify fun s => { s with cache := s.cache.clear }

end Provider

end Contracts
