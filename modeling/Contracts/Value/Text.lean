import Contracts.BinaryFloat.Decimal
import Contracts.Text.Utf16
import Contracts.Value

set_option autoImplicit false

/-! # Text of values

`Value.text` is what joins with other text; `Value.display` is what messages print, where text has
quotes around it. -/

namespace Contracts

/-- The text of an integer of a type: `char` shows its character, the others their digits. -/
def IntType.text (t : IntType) (bits : BitVec t.width) : String :=
  match t with
  | .char => (charOfUnit bits).toString
  | t => toString (t.toInt bits)

namespace Value

/-- The text of the value, to be joined with other text; absent values have none. -/
def text : Value → String
  | .void | .null => ""
  | .bool b => toString b
  | .int t bits => t.text bits
  | .float _ x => x.toText
  | .str text => text
  | .object ref => s!"object#{ref.type.index}"

/-- The value as messages print it. -/
def display : Value → String
  | .void => "void"
  | .null => "null"
  | .int .char bits => "'" ++ IntType.char.text bits ++ "'"
  | .str text => "\"" ++ text ++ "\""
  | .object ref => s!"<object #{ref.type.index}>"
  | v => v.text

/-- The `char` value of the first code unit of a character. -/
def ofChar (c : Char) : Value := .int .char ((utf16Units c).headD 0)

end Value

end Contracts
