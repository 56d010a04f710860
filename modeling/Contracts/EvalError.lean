import Contracts.Operator
import Contracts.Text.Quoted

set_option autoImplicit false

/-! # Evaluation errors

Why an operation on values failed. Types appear by the names that messages use for them. -/

namespace Contracts

/-- The cause of a failed evaluation. -/
inductive EvalError
  | divisionByZero
  | moduloByZero
  | integerOverflow (operation : String)
  | typeMismatch (expected got : String)
  /-- The operator means nothing on operands of the type. -/
  | invalidBinaryOp (typeName : String) (op : BinaryOp)
  /-- No operator is defined between the two types. -/
  | binaryTypeMismatch (left right : String)
  | invalidConversion (source target : String)
  | parseFailure (text target : String)
  | undefinedOperation (operation typeName : String)
  | undefinedField (field : String)
  /-- An operation on an instance was called without one. -/
  | nullReceiver (operation : String)
  | wrongArgCount (name : String) (expected got : Nat)
  | wrongArgType (name expected got : String)
  /-- A failure that a member chose to report. -/
  | custom (message : String)
deriving DecidableEq

/-- The code of an error: the cause without its particulars. -/
def EvalError.code : EvalError → String
  | .divisionByZero => "DivisionByZero"
  | .moduloByZero => "ModuloByZero"
  | .integerOverflow _ => "IntegerOverflow"
  | .typeMismatch _ _ => "TypeMismatch"
  | .invalidBinaryOp _ _ => "InvalidBinaryOp"
  | .binaryTypeMismatch _ _ => "BinaryTypeMismatch"
  | .invalidConversion _ _ => "InvalidConversion"
  | .parseFailure _ _ => "ParseFailure"
  | .undefinedOperation _ _ => "UndefinedOperation"
  | .undefinedField _ => "UndefinedField"
  | .nullReceiver _ => "NullReceiver"
  | .wrongArgCount _ _ _ => "ArityMismatch"
  | .wrongArgType _ _ _ => "WrongArgType"
  | .custom _ => "Custom"

/-- The message of an error. -/
def EvalError.message : EvalError → String
  | .divisionByZero => "division by zero"
  | .moduloByZero => "modulo by zero"
  | .integerOverflow operation => s!"integer overflow in {operation}"
  | .typeMismatch expected got => s!"type mismatch: expected {expected}, got {got}"
  | .invalidBinaryOp typeName op =>
      "operator `" ++ op.symbol ++ "` cannot be applied to " ++ typeName
  | .binaryTypeMismatch left right =>
      "cannot apply operator to `" ++ left ++ "` and `" ++ right ++ "`"
  | .invalidConversion source target => s!"cannot convert {source} to {target}"
  | .parseFailure text target => "cannot parse " ++ quote text ++ " as " ++ target
  | .undefinedOperation operation typeName => s!"no operation '{operation}' on {typeName}"
  | .undefinedField field => s!"no field {field} on object"
  | .nullReceiver operation =>
      s!"'{operation}' requires an instance, but the adapter has none"
  | .wrongArgCount name expected got =>
      let noun := if expected = 1 then "argument" else "arguments"
      s!"{name} expects {expected} {noun}, got {got}"
  | .wrongArgType name expected got => s!"{name} expects a {expected} argument, got {got}"
  | .custom message => message

end Contracts
