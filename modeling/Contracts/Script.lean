import Contracts.Arithmetic
import Contracts.Heap

set_option autoImplicit false

/-! # Scripts

A small expression language for member bodies, in which a body can be read, stored and compared
before it is run. `Script.run` is the body that a script stands for. -/

namespace Contracts

/-- An expression over the receiver and the arguments of a member. -/
inductive Script
  | const (v : Value)
  /-- The receiver. -/
  | self
  /-- An argument; one that was not passed is `void`. -/
  | arg (i : Nat)
  /-- A field of the receiver. -/
  | field (name : String)
  /-- A field of an argument. -/
  | argField (i : Nat) (name : String)
  /-- Write a field of the receiver. -/
  | setField (name : String) (value : Script)
  | binary (op : BinaryOp) (left right : Script)
  /-- Explicit numeric conversion. -/
  | cast (target : Builtin) (value : Script)
  /-- The text of a value. -/
  | text (value : Script)
  /-- A text that shows the receiver and the arguments. -/
  | echo (tag : String)
  | fail (message : String)
  /-- A new object of a declared type. -/
  | new (type : TypeIdx) (fields : List (String × Script))
  /-- All of them in turn; the result is the last one's. -/
  | sequence (steps : List Script)

namespace Script

mutual

/-- Evaluate a script on a receiver and arguments. -/
def run : Script → Body
  | .const v, _, _ => pure v
  | .self, receiver, _ =>
      match receiver with
      | some v => pure v
      | none => throw (.nullReceiver "self")
  | .arg i, _, args => pure (args[i]?.getD .void)
  | .field name, receiver, _ => do
      readField (← Eval.ofExcept (receiverObject receiver name)) name
  | .argField i name, _, args => do
      readField (← Eval.ofExcept (receiverObject args[i]? name)) name
  | .setField name value, receiver, args => do
      let v ← value.run receiver args
      writeField (← Eval.ofExcept (receiverObject receiver name)) name v
      pure .void
  | .binary op left right, receiver, args => do
      let l ← left.run receiver args
      let r ← right.run receiver args
      Eval.ofExcept (op.eval l r)
  | .cast target value, receiver, args => do
      let v ← value.run receiver args
      match v.castNumeric? target with
      | some w => pure w
      | none => throw (.invalidConversion v.typeName target.name)
  | .text value, receiver, args => do pure (.str (← value.run receiver args).text)
  | .echo tag, receiver, args =>
      let self := (receiver.map Value.display).getD "-"
      pure (.str (tag ++ "(" ++ self ++ ";" ++ ",".intercalate (args.map Value.display) ++ ")"))
  | .fail message, _, _ => throw (.custom message)
  | .new type fields, receiver, args => do newObject type (← runFields fields receiver args)
  | .sequence steps, receiver, args => runSteps steps .void receiver args

/-- Evaluate the fields of a new object in turn. -/
def runFields : List (String × Script) → Option Value → List Value → Eval Fields
  | [], _, _ => pure []
  | (name, value) :: rest, receiver, args => do
      let v ← value.run receiver args
      pure ((name, v) :: (← runFields rest receiver args))

/-- Evaluate steps in turn, after one with the given result. -/
def runSteps : List Script → Value → Body
  | [], last, _, _ => pure last
  | first :: rest, _, receiver, args => do
      runSteps rest (← first.run receiver args) receiver args

end

end Script

end Contracts
