import Contracts.Match

set_option autoImplicit false

/-! # Adapters

An adapter shows a value through a contract: it has one slot for each operation of the contract,
and calling a slot forwards to what the operation is bound to. Slots are called by name; of several
with one name, the first whose parameters accept the arguments is run. -/

namespace Contracts

/-! ## Running a binding -/

/-- The side on which the instance stands, for operators. -/
def Operation.side (op : Operation) : Side :=
  match op.kind with
  | .operator _ side => side
  | _ => .left

/-- The name that the operation is called by; properties are read and written under names of their
own. -/
def Operation.slotName (op : Operation) : String :=
  match op.kind with
  | .getter => "get_" ++ op.name
  | .setter => "set_" ++ op.name
  | _ => op.name

/-- The instance that an operation needs. -/
def requireInstance (self? : Option Value) (name : String) : Except EvalError Value :=
  match self? with
  | none | some .null => .error (.nullReceiver name)
  | some v => .ok v

namespace Binding

/-- The arguments of a method, each brought to its parameter's type. -/
def coercedArgs (b : Binding) (args : List Value) : Except EvalError (List Value) :=
  (b.args.zip args).mapM fun (c, v) => c.apply v

/-- The one argument of an operator or setter, brought to the type of its place. -/
def coercedArg (b : Binding) (name : String) (args : List Value) : Except EvalError Value :=
  match args with
  | [] => .error (.wrongArgCount name 1 0)
  | v :: _ => (b.args.headD .identity).apply v

/-- Call what the operation is bound to. Values are coerced on the way in and on the way out. -/
def run (b : Binding) (name : String) (self? : Option Value) (args : List Value) : Eval Value :=
  let this : Eval Value := Eval.ofExcept (requireInstance self? name)
  let finish (v : Value) : Eval Value := Eval.ofExcept (b.ret.apply v)
  match b.target with
  | .method m => do
      let args ← Eval.ofExcept (b.coercedArgs args)
      if m.decl.isStatic then finish (← m.decl.body none args)
      else finish (← m.decl.body (some (← this)) args)
  | .conversion c => do finish (← c.decl.body (some (← this)) [])
  | .identity => this
  | .operator o => do
      let operand ← Eval.ofExcept (b.receiver.apply (← this))
      let other ← Eval.ofExcept (b.coercedArg name args)
      let (left, right) := b.operation.side.arrange operand other
      finish (← o.decl.body none [left, right])
  | .primitive p => do
      let operand ← Eval.ofExcept (b.receiver.apply (← this))
      if b.args.isEmpty then finish (← Eval.ofExcept (p.eval operand none))
      else
        let other ← Eval.ofExcept (b.coercedArg name args)
        let (left, right) := b.operation.side.arrange operand other
        finish (← Eval.ofExcept (p.eval left (some right)))
  | .property p =>
      match b.operation.kind with
      | .setter => do
          let self ← this
          let v ← Eval.ofExcept (b.coercedArg name args)
          match p.setter with
          | some setter => do
              let _ ← setter (some self) [v]
              pure .void
          | none => throw (.undefinedOperation name "property")
      | _ => do
          let self ← this
          match p.getter with
          | some getter => finish (← getter (some self) [])
          | none => throw (.undefinedOperation name "property")

end Binding

/-! ## Adapter types -/

/-- One callable operation of an adapter type. -/
structure Slot where
  name : String
  binding : Binding

/-- The positions of the slots of each name, in ascending order. -/
abbrev SlotIndex := List (String × List Nat)

/-- The index with one more position under a name. -/
def SlotIndex.add (name : String) (position : Nat) : SlotIndex → SlotIndex
  | [] => [(name, [position])]
  | (other, positions) :: rest =>
      if other = name then (other, positions ++ [position]) :: rest
      else (other, positions) :: SlotIndex.add name position rest

/-- A new position comes last under its name, and changes no other name. -/
theorem SlotIndex.lookup_add (index : SlotIndex) (name other : String) (position : Nat) :
    (SlotIndex.add name position index).lookup other =
      if other = name then some ((index.lookup name).getD [] ++ [position])
      else index.lookup other := by
  induction index with
  | nil =>
      by_cases h : other = name
      · simp [SlotIndex.add, h]
      · simp [SlotIndex.add, List.lookup_cons, h, beq_eq_false_iff_ne.2 h]
  | cons entry rest ih =>
      obtain ⟨first, positions⟩ := entry
      by_cases hf : first = name
      · subst hf
        by_cases h : other = first
        · simp [SlotIndex.add, h]
        · simp [SlotIndex.add, List.lookup_cons, h, beq_eq_false_iff_ne.2 h]
      · by_cases h : other = first
        · subst h
          simp [SlotIndex.add, hf]
        · have hn : (name == first) = false := beq_eq_false_iff_ne.2 (Ne.symm hf)
          simp only [SlotIndex.add, hf, if_false, List.lookup_cons, beq_eq_false_iff_ne.2 h, ih, hn]

/-- The index of slots with the given names. -/
def SlotIndex.ofNames (names : List String) : SlotIndex :=
  names.zipIdx.foldl (fun index (name, position) => SlotIndex.add name position index) []

/-- What all adapters of one type for one contract have in common. -/
structure AdapterType where
  /-- Which synthesis made the adapter type; of a counter of 64 bits, this is what it shows in the
  first 2 ^ 64 syntheses. -/
  id : Nat
  result : MatchResult
  slots : List Slot
  index : SlotIndex

namespace AdapterType

/-- The adapter type for a satisfied match. -/
def synthesize (id : Nat) (result : MatchResult) : AdapterType :=
  let slots := result.bindings.map fun b => (⟨b.operation.slotName, b⟩ : Slot)
  { id, result, slots, index := .ofNames (slots.map (·.name)) }

/-- The name of the adapter type. -/
def name (a : AdapterType) : String :=
  s!"{a.result.contractName}_for_{a.result.typeName}#{a.id}"

/-- The slots of a name in the contract's order, if there are any. -/
def candidates? (a : AdapterType) (name : String) : Option (List Slot) :=
  (a.index.lookup name).map fun positions => positions.filterMap (a.slots[·]?)

/-- The first argument that its parameter does not accept, with that parameter. -/
def mismatch? (r : Registry) (params : List TypeRef) (args : List Value) :
    Option (TypeRef × Value) :=
  (params.zip args).find? fun (ty, v) => !r.accepts ty v

/-- The first of the candidates that accepts the arguments. Failing that, a wrong type is reported
rather than a wrong number of arguments: the last wrong type, but the first wrong number. -/
def select (a : AdapterType) (r : Registry) (name : String) (args : List Value)
    (failure : Option EvalError) : List Slot → Except EvalError Slot
  | [] => .error (failure.getD (.undefinedOperation name a.name))
  | slot :: rest =>
      let params := slot.binding.operation.params
      if params.length ≠ args.length then
        a.select r name args
          (failure <|> some (.wrongArgCount name params.length args.length)) rest
      else
        match mismatch? r params args with
        | none => .ok slot
        | some (ty, v) =>
            a.select r name args
              (some (.wrongArgType name (r.typeName ty) (r.valueTypeName v))) rest

/-- Call the operation of a name. The registry says which arguments are accepted now. -/
def invoke (a : AdapterType) (r : Registry) (self? : Option Value) (name : String)
    (args : List Value) : Eval Value :=
  match a.candidates? name with
  | none => throw (.undefinedOperation name a.name)
  | some candidates => do
      let slot ← Eval.ofExcept (a.select r name args none candidates)
      slot.binding.run slot.name self? args

end AdapterType

/-- A value seen through a contract. An adapter for a contract of static methods may have none. -/
structure Adapter where
  type : AdapterType
  self? : Option Value

namespace Adapter

/-- Call an operation. -/
def call (a : Adapter) (r : Registry) (name : String) (args : List Value) : Eval Value :=
  a.type.invoke r a.self? name args

/-- Read a property. -/
def get (a : Adapter) (r : Registry) (property : String) : Eval Value :=
  a.call r ("get_" ++ property) []

/-- Write a property. -/
def set (a : Adapter) (r : Registry) (property : String) (v : Value) : Eval Value :=
  a.call r ("set_" ++ property) [v]

end Adapter

end Contracts
