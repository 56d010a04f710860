import Contracts.NameTable
import Contracts.StandardContract

set_option autoImplicit false

/-! # Texts for inspection

One-line descriptions that show what values, adapters, providers and name tables are made of. -/

namespace Contracts

/-- Fields in the order of their names. -/
def Fields.sorted (fields : Fields) : Fields :=
  fields.mergeSort fun (a, _) (b, _) => a ≤ b

/-- Inspect a value, following object references for at most `depth` steps. -/
def Value.inspectTo (h : Heap) : Nat → Value → String
  | _, .void => "Void"
  | _, .null => "Null"
  | _, .int .char bits =>
      let digits := Nat.toDigits 16 bits.toNat
      "Char(0x" ++ String.ofList (List.replicate (4 - digits.length) '0' ++ digits) ++ ")"
  | _, .str text => "Str(" ++ quote text ++ ")"
  | 0, .object _ => "Object { .. }"
  | depth + 1, .object ref =>
      let fields := (h.fields ref).sorted.map fun (name, v) =>
        s!", {name}: " ++ Value.inspectTo h depth v
      s!"Object \x7b ty: {ref.type.index}" ++ String.join fields ++ " \x7d"
  | _, v => v.typeName.capitalize ++ "(" ++ v.text ++ ")"

/-- Inspect a value. A path through different objects is never cut short. -/
def Value.inspect (h : Heap) (v : Value) : String := v.inspectTo h h.objects.size

/-- Inspect an adapter. -/
def Adapter.inspect (h : Heap) (a : Adapter) : String :=
  let self := match a.self? with
    | some v => "Some(" ++ v.inspect h ++ ")"
    | none => "None"
  "Adapter \x7b type: " ++ quote a.type.name ++ ", instance: " ++ self ++ " \x7d"

/-- Inspect a provider: its configuration, the size of its cache and what it has counted. -/
def Provider.inspect (config : Config) (cache : Cache) : String :=
  let stats := cache.stats
  "ContractProvider \x7b config: ProviderConfig \x7b " ++
    s!"allow_parameter_substitution: {config.substituteParams}, " ++
    s!"use_fallback_table: {config.usePrimitives}, " ++
    s!"search_operand_operators: {config.searchOperands} \x7d, " ++
    s!"cache: ResultCache \x7b entries: {cache.entries.length}, stats: CacheStats \x7b " ++
    s!"matcher_runs: {stats.matcherRuns}, syntheses: {stats.syntheses}, " ++
    s!"discarded_syntheses: {stats.discarded}, hits: {stats.hits} \x7d \x7d, .. \x7d"

/-- Inspect a name table: the number of names in it. -/
def NameTable.inspect (table : NameTable) : String :=
  s!"SharedInterner({table.size} names)"

end Contracts
