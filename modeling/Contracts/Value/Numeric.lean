import Contracts.Value

set_option autoImplicit false

/-! # Numeric conversions

Reading numbers out of values and making values of numeric types from numbers. A *cast* keeps the
low bits of an integer and cuts a float off toward zero; a *widening* keeps an integer exactly or
fails. -/

namespace Contracts

namespace Value

/-- The integer, if this is a value of an integer type. -/
def toInteger? : Value → Option Int
  | .int t bits => some (t.toInt bits)
  | _ => none

/-- The number as a 64-bit float, if this is a value of a numeric type. -/
def toFloat? : Value → Option (BinaryFloat .f64)
  | .int t bits => some (.ofInt .f64 (t.toInt bits))
  | .float _ x => some (x.cast .f64)
  | _ => none

/-- The value of a numeric type nearest to an integer; integer types must hold it exactly. -/
def ofInteger? (n : Int) : Builtin → Option Value
  | .int t => t.ofInt? n
  | .float t => some (.float t (.ofInt t n))
  | _ => none

/-- The value of a numeric type for an integer, of which integer types keep the low bits. -/
def wrapInteger? (n : Int) : Builtin → Option Value
  | .int t => some (t.wrap n)
  | .float t => some (.float t (.ofInt t n))
  | _ => none

/-- The value of a numeric type for a float. Integer types take the truncated number, or their
nearest bound. -/
def ofFloat? (x : BinaryFloat .f64) : Builtin → Option Value
  | .int t => some (t.wrap (x.toInt t.minValue t.maxValue))
  | .float t => some (.float t (x.cast t))
  | _ => none

/-- Explicit conversion between numeric types. -/
def castNumeric? (v : Value) (target : Builtin) : Option Value :=
  match v with
  | .int t bits => wrapInteger? (t.toInt bits) target
  | .float _ x => ofFloat? (x.cast .f64) target
  | _ => none

/-- Implicit conversion between numeric types; an integer must fit. -/
def widen? (v : Value) (target : Builtin) : Option Value :=
  match v with
  | .int t bits => ofInteger? (t.toInt bits) target
  | .float _ x => ofFloat? (x.cast .f64) target
  | _ => none

end Value

end Contracts
