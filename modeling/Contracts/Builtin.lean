set_option autoImplicit false

/-! # Built-in types

The integer types, the floating types, and the other types every registry knows without a
declaration, with the two rules that relate them: which type widens to which, and the common type
to which two numeric operands are promoted. -/

-- Powers are those of the core library, whatever else is imported.
attribute [local instance (high)] instPowNat

namespace Contracts

/-! ## Integer types -/

/-- A fixed-width integer type. `char` is a UTF-16 code unit that computes like an unsigned
16-bit integer. -/
inductive IntType
  | char | i8 | u8 | i16 | u16 | i32 | u32 | i64 | u64
deriving DecidableEq

/-- The number of bits of a value. -/
def IntType.width : IntType → Nat
  | .i8 | .u8 => 8
  | .char | .i16 | .u16 => 16
  | .i32 | .u32 => 32
  | .i64 | .u64 => 64

/-- Whether the top bit counts negatively. -/
def IntType.isSigned : IntType → Bool
  | .i8 | .i16 | .i32 | .i64 => true
  | _ => false

/-- The least integer of the type. -/
def IntType.minValue (t : IntType) : Int :=
  if t.isSigned then -2 ^ (t.width - 1) else 0

/-- The greatest integer of the type. -/
def IntType.maxValue (t : IntType) : Int :=
  if t.isSigned then 2 ^ (t.width - 1) - 1 else 2 ^ t.width - 1

/-- Whether the type holds `n` exactly. -/
def IntType.Holds (t : IntType) (n : Int) : Prop :=
  t.minValue ≤ n ∧ n ≤ t.maxValue

instance (t : IntType) (n : Int) : Decidable (t.Holds n) :=
  inferInstanceAs (Decidable (_ ∧ _))

/-- One integer type widens to another when every value fits; nothing widens to `char`. -/
def IntType.widensTo (source target : IntType) : Bool :=
  source ≠ target && target ≠ .char &&
    target.minValue ≤ source.minValue && source.maxValue ≤ target.maxValue

/-- The type in which two integers meet: 32 bits, or more if an operand has more, unsigned only
if neither operand is signed. No type holds both `u64` and the signed types. -/
def IntType.promote (a b : IntType) : Option IntType :=
  let signed := a.isSigned || b.isSigned
  if a = .u64 ∨ b = .u64 then if signed then none else some .u64
  else if a = .i64 ∨ b = .i64 then some .i64
  else if a = .u32 ∨ b = .u32 then if signed then some .i64 else some .u32
  else some .i32

/-! ## All built-in types -/

/-- A floating type, named for its number of bits. -/
inductive FloatType
  | f32 | f64
deriving DecidableEq

/-- The larger of two floating types. -/
def FloatType.promote : FloatType → FloatType → FloatType
  | .f32, .f32 => .f32
  | _, _ => .f64

/-- A built-in type. `object` is the top type of every value but `void`. -/
inductive Builtin
  | bool
  | int (t : IntType)
  | float (t : FloatType)
  | str
  | object
  | void
deriving DecidableEq

/-- The numeric types, in the order in which the primitive operations are listed. -/
def Builtin.numeric : List Builtin :=
  [.int .char, .int .i8, .int .u8, .int .i16, .int .u16, .int .i32, .int .u32, .int .i64,
    .int .u64, .float .f32, .float .f64]

/-- Every built-in type. -/
def Builtin.all : List Builtin :=
  .bool :: Builtin.numeric ++ [.str, .object, .void]

/-- The name of an integer type. -/
def IntType.name : IntType → String
  | .char => "char"
  | .i8 => "i8"
  | .u8 => "u8"
  | .i16 => "i16"
  | .u16 => "u16"
  | .i32 => "i32"
  | .u32 => "u32"
  | .i64 => "i64"
  | .u64 => "u64"

/-- The name of a floating type. -/
def FloatType.name : FloatType → String
  | .f32 => "f32"
  | .f64 => "f64"

/-- The name of the type. -/
def Builtin.name : Builtin → String
  | .bool => "bool"
  | .int t => t.name
  | .float t => t.name
  | .str => "str"
  | .object => "object"
  | .void => "void"

/-- The built-in type of a name, if there is one. -/
def Builtin.ofName? (name : String) : Option Builtin :=
  Builtin.all.find? (·.name == name)

theorem Builtin.ofName?_name (b : Builtin) : Builtin.ofName? b.name = some b := by
  cases b with
  | int t => cases t <;> decide
  | float t => cases t <;> decide
  | _ => decide

/-- Integers and floats. -/
def Builtin.isNumeric : Builtin → Bool
  | .int _ | .float _ => true
  | _ => false

/-- Floating types. -/
def Builtin.isFloat : Builtin → Bool
  | .float _ => true
  | _ => false

/-- Integer types, `char` included. -/
def Builtin.isIntegral : Builtin → Bool
  | .int _ => true
  | _ => false

/-- Integer types with negative values. -/
def Builtin.isSignedIntegral : Builtin → Bool
  | .int t => t.isSigned
  | _ => false

/-- Value types are copied, and boxed where an `object` is wanted. -/
def Builtin.isValueType : Builtin → Bool
  | .bool | .int _ | .float _ => true
  | _ => false

/-- Reference types admit `null`. -/
def Builtin.isReferenceType : Builtin → Bool
  | .str | .object => true
  | _ => false

/-- Implicit numeric widening. Integers widen to both floating types; a type does not widen to
itself. -/
def Builtin.widensTo : Builtin → Builtin → Bool
  | .int s, .int t => s.widensTo t
  | .int _, .float _ => true
  | .float .f32, .float .f64 => true
  | _, _ => false

/-- The types that a type widens to, from narrow to wide. -/
def Builtin.wider : Builtin → List Builtin
  | .int .i8 => [.int .i16, .int .i32, .int .i64, .float .f32, .float .f64]
  | .int .u8 =>
      [.int .i16, .int .u16, .int .i32, .int .u32, .int .i64, .int .u64, .float .f32, .float .f64]
  | .int .i16 => [.int .i32, .int .i64, .float .f32, .float .f64]
  | .int .u16 => [.int .i32, .int .u32, .int .i64, .int .u64, .float .f32, .float .f64]
  | .int .char =>
      [.int .u16, .int .i32, .int .u32, .int .i64, .int .u64, .float .f32, .float .f64]
  | .int .i32 => [.int .i64, .float .f32, .float .f64]
  | .int .u32 => [.int .i64, .int .u64, .float .f32, .float .f64]
  | .int .i64 | .int .u64 => [.float .f32, .float .f64]
  | .float .f32 => [.float .f64]
  | _ => []

/-- The rule of value ranges comes to this table. -/
theorem Builtin.widensTo_iff_mem {source target : Builtin} :
    source.widensTo target = true ↔ target ∈ source.wider := by
  cases source with
  | int s =>
      cases target with
      | int t | float t => cases s <;> cases t <;> decide
      | bool | str | object | void => cases s <;> decide
  | float s =>
      cases target with
      | int t | float t => cases s <;> cases t <;> decide
      | bool | str | object | void => cases s <;> decide
  | bool | str | object | void =>
      cases target with
      | int t | float t => cases t <;> decide
      | bool | str | object | void => decide

/-- The common type of two numeric operands: the larger floating type if there is one, and else
the promoted integer type. -/
def Builtin.promote : Builtin → Builtin → Option Builtin
  | .int a, .int b => (a.promote b).map .int
  | .int _, .float t | .float t, .int _ => some (.float t)
  | .float a, .float b => some (.float (a.promote b))
  | _, _ => none

end Contracts
