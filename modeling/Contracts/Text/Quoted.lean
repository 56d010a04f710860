import Contracts.Text.Hidden

set_option autoImplicit false

/-! # Quoted text

Text between double quotes, with a backslash before quotes and backslashes, short escapes for the
common controls, and the number of every other hidden character. -/

namespace Contracts

/-- The spelling of one character inside quotes. -/
def quoteChar (c : Char) : String :=
  if c = '\x00' then "\\0"
  else if c = '\t' then "\\t"
  else if c = '\r' then "\\r"
  else if c = '\n' then "\\n"
  else if c = '"' then "\\\""
  else if c = '\\' then "\\\\"
  else if isHidden c then "\\u\x7b" ++ String.ofList (Nat.toDigits 16 c.toNat) ++ "\x7d"
  else c.toString

/-- The text in quotes. -/
def quote (text : String) : String :=
  "\"" ++ String.join (text.toList.map quoteChar) ++ "\""

end Contracts
