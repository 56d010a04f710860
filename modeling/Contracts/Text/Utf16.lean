set_option autoImplicit false

/-! # UTF-16 code units

Characters beyond the first plane take two units, the surrogates. -/

namespace Contracts

/-- The code units of a character. -/
def utf16Units (c : Char) : List (BitVec 16) :=
  if c.toNat < 0x10000 then [BitVec.ofNat 16 c.toNat]
  else
    let n := c.toNat - 0x10000
    [BitVec.ofNat 16 (0xd800 + n / 0x400), BitVec.ofNat 16 (0xdc00 + n % 0x400)]

/-- The character that a code unit is by itself; a surrogate is none. -/
def charOfUnit? (unit : BitVec 16) : Option Char :=
  if h : unit.toNat.isValidChar then some (Char.ofNatAux unit.toNat h) else none

/-- The character that a code unit is shown as: itself, or the replacement character. -/
def charOfUnit (unit : BitVec 16) : Char :=
  (charOfUnit? unit).getD '\ufffd'

end Contracts
