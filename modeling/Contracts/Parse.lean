import Contracts.BinaryFloat.Decimal
import Contracts.EvalError
import Contracts.Text.Blank
import Contracts.Text.Utf16
import Contracts.Value

set_option autoImplicit false

/-! # Reading values from text

White space around numbers and truth values does not count; a `char` is exactly one code unit, and
`str` is the text itself. -/

namespace Contracts

/-- Read an integer of a type: digits after an optional sign, a minus only if the type is
signed. -/
def IntType.parse? (t : IntType) (text : List Char) : Option Value :=
  match text with
  | '-' :: digits =>
      if t.isSigned then (readDigits? digits).bind fun n => t.ofInt? (-n) else none
  | '+' :: digits => (readDigits? digits).bind fun n => t.ofInt? n
  | digits => (readDigits? digits).bind fun n => t.ofInt? n

/-- Read a value of a built-in type, if the text is one. -/
def Builtin.parse? (b : Builtin) (text : String) : Option Value :=
  let trimmed := trimBlank text.toList
  match b with
  | .bool =>
      let word := String.ofList (trimmed.map Char.toLower)
      if word = "true" then some (.bool true)
      else if word = "false" then some (.bool false)
      else none
  | .int .char =>
      match text.toList.flatMap utf16Units with
      | [unit] => some (.int .char unit)
      | _ => none
  | .int t => t.parse? trimmed
  | .float t => (BinaryFloat.ofText? t trimmed).map (.float t)
  | .str => some (.str text)
  | .object | .void => none

/-- Read a value of a built-in type. -/
def Builtin.parse (b : Builtin) (text : String) : Except EvalError Value :=
  match b.parse? text with
  | some v => .ok v
  | none => .error (.parseFailure text b.name)

end Contracts
