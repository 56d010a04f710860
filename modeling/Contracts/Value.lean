import Contracts.BinaryFloat
import Contracts.TypeRef

set_option autoImplicit false

/-! # Values

What an operation takes and returns: a built-in value, `null`, `void`, or a reference to an object.
Integers are the bits of their type, so that every representation is a value and wrapping is what
`BitVec` does. An object reference carries the type of its object, which never changes; the fields
are kept in a `Heap`. -/

namespace Contracts

/-- A reference to an object: which one it is, and its type. -/
structure ObjectRef where
  id : Nat
  type : TypeIdx
deriving DecidableEq

/-- A value. -/
inductive Value
  /-- The result of an operation that returns nothing. -/
  | void
  /-- The absent reference. -/
  | null
  | bool (b : Bool)
  | int (t : IntType) (bits : BitVec t.width)
  | float (t : FloatType) (x : BinaryFloat t)
  | str (text : String)
  | object (ref : ObjectRef)
deriving DecidableEq

/-! ## Integers of a type -/

namespace IntType

/-- The integer that the bits stand for. -/
def toInt (t : IntType) (bits : BitVec t.width) : Int :=
  if t.isSigned then bits.toInt else bits.toNat

/-- The value of the type that agrees with `n` in its low bits. -/
def wrap (t : IntType) (n : Int) : Value := .int t (BitVec.ofInt t.width n)

/-- The value `n` of the type, if the type holds it. -/
def ofInt? (t : IntType) (n : Int) : Option Value :=
  if t.Holds n then some (t.wrap n) else none

/-- Every value of the type stands for an integer that the type holds. -/
theorem holds_toInt (t : IntType) (bits : BitVec t.width) : t.Holds (t.toInt bits) := by
  unfold Holds toInt minValue maxValue
  split
  · exact ⟨bits.le_toInt, Int.le_sub_one_of_lt BitVec.toInt_lt⟩
  · have := bits.isLt
    constructor
    · exact Int.natCast_nonneg _
    · exact Int.le_sub_one_of_lt (by exact_mod_cast this)

/-- An integer that the type holds is what its low bits stand for. -/
theorem toInt_ofInt {t : IntType} {n : Int} (h : t.Holds n) :
    t.toInt (BitVec.ofInt t.width n) = n := by
  obtain ⟨low, high⟩ := h
  unfold minValue at low
  unfold maxValue at high
  unfold toInt
  split at low <;> rename_i signed <;> simp only [signed, if_true] at high ⊢
  · rw [BitVec.toInt_ofInt]
    cases t <;> simp [isSigned] at signed <;> simp [width, Int.bmod_def] at * <;> omega
  · cases t <;> simp [isSigned] at signed <;> simp [width, BitVec.toNat_ofInt] at * <;> omega

end IntType

/-! ## Views -/

namespace Value

/-- The built-in type of the value; objects and `null` have none. -/
def builtin? : Value → Option Builtin
  | .void => some .void
  | .bool _ => some .bool
  | .int t _ => some (.int t)
  | .float t _ => some (.float t)
  | .str _ => some .str
  | .null | .object _ => none

/-- The type of which the value is an instance; `null` and `void` are instances of none. -/
def runtimeType? : Value → Option ImplType
  | .void | .null => none
  | .bool _ => some (.builtin .bool)
  | .int t _ => some (.builtin (.int t))
  | .float t _ => some (.builtin (.float t))
  | .str _ => some (.builtin .str)
  | .object ref => some (.named ref.type)

/-- The type as error messages name it; every object is an `object`. -/
def typeName : Value → String
  | .null => "null"
  | .object _ => "object"
  | .void => "void"
  | .bool _ => "bool"
  | .int t _ => t.name
  | .float t _ => t.name
  | .str _ => "str"

/-- The truth value, if this is one. -/
def bool? : Value → Option Bool
  | .bool b => some b
  | _ => none

/-- The text, if this is one. -/
def str? : Value → Option String
  | .str text => some text
  | _ => none

/-- The object, if this is one. -/
def object? : Value → Option ObjectRef
  | .object ref => some ref
  | _ => none

/-- Equality as operations see it: floats compare as numbers, objects by identity, and values of
different types are different. -/
def equal : Value → Value → Bool
  | .float .f32 x, .float .f32 y => x.equal y
  | .float .f64 x, .float .f64 y => x.equal y
  | .float _ _, _ => false
  | v, w => v = w

end Value

end Contracts
