import Contracts.Builtin

set_option autoImplicit false

/-! # Binary floating-point numbers

A finite value of a floating type is a sign and a *code*, the position of its magnitude among the
finite magnitudes of the type; the code is also the bit pattern below the sign bit. There is one
NaN, since nothing in this library can tell two apart.

Every magnitude is a whole number of *units*, the least positive magnitude of its type. So each
operation is computed exactly on integers and rounded once, to the nearest code and on a tie to
the even one. -/

-- Powers are those of the core library, whatever else is imported.
attribute [local instance (high)] instPowNat

namespace Contracts

/-! ## Formats -/

/-- The number of fraction bits. -/
def FloatType.fractionBits : FloatType → Nat
  | .f32 => 23
  | .f64 => 52

/-- The number of exponent bits. -/
def FloatType.exponentBits : FloatType → Nat
  | .f32 => 8
  | .f64 => 11

/-- One is `2 ^ scale` units. -/
def FloatType.scale (t : FloatType) : Nat :=
  2 ^ (t.exponentBits - 1) - 2 + t.fractionBits

/-- The first code that is no finite magnitude; as a bit pattern it stands for infinity. -/
def FloatType.infinityCode (t : FloatType) : Nat :=
  (2 ^ t.exponentBits - 1) * 2 ^ t.fractionBits

/-- A value of a floating type. -/
inductive BinaryFloat (t : FloatType)
  | nan
  | infinite (negative : Bool)
  | finite (negative : Bool) (code : Fin t.infinityCode)
deriving DecidableEq

/-- The magnitude of a code in units: the fraction, with a leading bit unless the exponent field
is zero, moved up by the exponent. -/
def FloatType.units (t : FloatType) (code : Nat) : Nat :=
  let exponent := code >>> t.fractionBits
  let fraction := code % 2 ^ t.fractionBits
  if exponent = 0 then fraction else (2 ^ t.fractionBits + fraction) <<< (exponent - 1)

/-! ## Rounding -/

/-- The integer nearest to `num / den`, the even one of two. -/
def roundHalfEven (num den : Nat) : Nat :=
  let q := num / den
  let r := num % den
  if 2 * r < den then q
  else if 2 * r = den then q + q % 2
  else q + 1

namespace BinaryFloat

variable {t u : FloatType}

/-- The value nearest to `num / den` units, under a sign. Codes are one unit apart up to the code
with two leading bits, and the distance doubles with each further exponent; rounding up past a
power of two gives the code of that power by itself. -/
def round (t : FloatType) (negative : Bool) (num den : Nat) : BinaryFloat t :=
  let exponent := (num / den).log2 - t.fractionBits
  let code := exponent * 2 ^ t.fractionBits + roundHalfEven num (den <<< exponent)
  if h : code < t.infinityCode then .finite negative ⟨code, h⟩ else .infinite negative

/-- Zero under a sign. -/
def zero (t : FloatType) (negative : Bool) : BinaryFloat t :=
  round t negative 0 1

/-- The value nearest to `n`. -/
def ofInt (t : FloatType) (n : Int) : BinaryFloat t :=
  round t (n < 0) (n.natAbs <<< t.scale) 1

/-- The value of type `u` nearest to a value of type `t`. -/
def cast (u : FloatType) : BinaryFloat t → BinaryFloat u
  | .nan => .nan
  | .infinite negative => .infinite negative
  | .finite negative code => round u negative (t.units code <<< u.scale) (1 <<< t.scale)

/-! ## Bits -/

/-- Read a bit pattern; bits above the width of the type do not count. -/
def ofBits (t : FloatType) (bits : Nat) : BinaryFloat t :=
  let magnitudeBits := t.exponentBits + t.fractionBits
  let negative := bits.testBit magnitudeBits
  let code := bits % 2 ^ magnitudeBits
  if h : code < t.infinityCode then .finite negative ⟨code, h⟩
  else if code = t.infinityCode then .infinite negative
  else .nan

/-- The bit pattern of a value; NaN has none of its own. -/
def toBits? : BinaryFloat t → Option Nat
  | .nan => none
  | .infinite negative =>
      some (negative.toNat <<< (t.exponentBits + t.fractionBits) + t.infinityCode)
  | .finite negative code =>
      some (negative.toNat <<< (t.exponentBits + t.fractionBits) + code)

/-! ## Arithmetic -/

/-- A magnitude under a sign. -/
def withSign (negative : Bool) (magnitude : Nat) : Int :=
  if negative then -magnitude else magnitude

/-- The value with the opposite sign. -/
def neg : BinaryFloat t → BinaryFloat t
  | .nan => .nan
  | .infinite negative => .infinite !negative
  | .finite negative code => .finite (!negative) code

/-- The sum. A sum of zero is negative only if both summands are. -/
def add : BinaryFloat t → BinaryFloat t → BinaryFloat t
  | .nan, _ | _, .nan => .nan
  | .infinite a, .infinite b => if a = b then .infinite a else .nan
  | .infinite a, .finite _ _ | .finite _ _, .infinite a => .infinite a
  | .finite a x, .finite b y =>
      let sum := withSign a (t.units x) + withSign b (t.units y)
      let negative := if sum = 0 then a && b else decide (sum < 0)
      round t negative sum.natAbs 1

/-- The difference. -/
def sub (x y : BinaryFloat t) : BinaryFloat t := x.add y.neg

/-- The product. -/
def mul : BinaryFloat t → BinaryFloat t → BinaryFloat t
  | .nan, _ | _, .nan => .nan
  | .infinite a, .infinite b => .infinite (a ^^ b)
  | .infinite a, .finite b x | .finite b x, .infinite a =>
      if x.val = 0 then .nan else .infinite (a ^^ b)
  | .finite a x, .finite b y => round t (a ^^ b) (t.units x * t.units y) (1 <<< t.scale)

/-- The quotient. -/
def div : BinaryFloat t → BinaryFloat t → BinaryFloat t
  | .nan, _ | _, .nan | .infinite _, .infinite _ => .nan
  | .infinite a, .finite b _ => .infinite (a ^^ b)
  | .finite a _, .infinite b => zero t (a ^^ b)
  | .finite a x, .finite b y =>
      if y.val = 0 then if x.val = 0 then .nan else .infinite (a ^^ b)
      else round t (a ^^ b) (t.units x <<< t.scale) (t.units y)

/-- The remainder of the quotient truncated toward zero; it has the sign of the dividend. -/
def rem : BinaryFloat t → BinaryFloat t → BinaryFloat t
  | .nan, _ | _, .nan | .infinite _, _ => .nan
  | .finite a x, .infinite _ => .finite a x
  | .finite a x, .finite _ y =>
      if y.val = 0 then .nan else round t a (t.units x % t.units y) 1

/-! ## Comparison -/

/-- An integer that orders the values as their magnitudes and signs do; both zeros have the
same. -/
def key? : BinaryFloat t → Option Int
  | .nan => none
  | .infinite negative => some (withSign negative t.infinityCode)
  | .finite negative code => some (withSign negative code)

/-- Whether `test` holds of the order of two values; nothing holds of NaN. -/
def compareWith (test : Int → Int → Bool) (x y : BinaryFloat t) : Bool :=
  match x.key?, y.key? with
  | some a, some b => test a b
  | _, _ => false

/-- Equality of numbers: NaN differs from itself, and the two zeros are equal. -/
def equal (x y : BinaryFloat t) : Bool := x.compareWith (· == ·) y

/-! ## Integers -/

/-- Cut off the fraction and bring the integer between `lo` and `hi`; NaN becomes zero. -/
def toInt (lo hi : Int) : BinaryFloat t → Int
  | .nan => 0
  | .infinite negative => if negative then lo else hi
  | .finite negative code =>
      max lo (min hi (withSign negative (t.units code >>> t.scale)))

end BinaryFloat

end Contracts
