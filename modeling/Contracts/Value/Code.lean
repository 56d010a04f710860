import Contracts.Value

set_option autoImplicit false

/-! # Tagged text of values

A value as one word: the name of its type, a colon, and the value. Floats are written as the
hexadecimal digits of their bits, so that nothing is lost. -/

namespace Contracts

/-- The value of a hexadecimal digit. -/
def hexDigit? (c : Char) : Option Nat :=
  if c.isDigit then some (c.toNat - '0'.toNat)
  else if 'a' ≤ c ∧ c ≤ 'f' then some (c.toNat - 'a'.toNat + 10)
  else none

/-- The bits of a float in hexadecimal; NaN by its name. -/
def BinaryFloat.toHex {t : FloatType} (x : BinaryFloat t) : String :=
  match x.toBits? with
  | none => "nan"
  | some bits =>
      let digits := Nat.toDigits 16 bits
      let width := (1 + t.exponentBits + t.fractionBits) / 4
      String.ofList (List.replicate (width - digits.length) '0' ++ digits)

/-- Read the bits of a float. -/
def BinaryFloat.ofHex? (t : FloatType) (text : String) : Option (BinaryFloat t) :=
  if text = "nan" then some .nan
  else (text.toList.foldlM (fun n c => (hexDigit? c).map (16 * n + ·)) 0).map (.ofBits t)

namespace Value

/-- The tagged text of a value, in which objects are told apart by the numbers given for them. -/
def toCode (number : Nat → Nat) : Value → String
  | .void => "void"
  | .null => "null"
  | .bool b => s!"bool:{b}"
  | .int .char bits => s!"char:{bits.toNat}"
  | .int t bits => s!"{t.name}:{t.toInt bits}"
  | .float t x => s!"{t.name}:{x.toHex}"
  | .str text => s!"str:{text}"
  | .object ref => s!"obj:{number ref.id}"

/-- Read a tagged text; objects are not read. -/
def ofCode? (text : String) : Option Value :=
  let (tag, rest) := text.toList.span (· ≠ ':')
  match rest with
  | [] =>
      match String.ofList tag with
      | "void" => some .void
      | "null" => some .null
      | _ => none
  | _ :: payload =>
      let payload := String.ofList payload
      match Builtin.ofName? (String.ofList tag) with
      | some .str => some (.str payload)
      | some .bool =>
          if payload = "true" then some (.bool true)
          else if payload = "false" then some (.bool false)
          else none
      | some (.int t) => payload.toInt?.bind t.ofInt?
      | some (.float t) => (BinaryFloat.ofHex? t payload).map (.float t)
      | _ => none

end Value

end Contracts
