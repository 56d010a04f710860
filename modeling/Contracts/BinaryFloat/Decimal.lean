import Contracts.BinaryFloat

set_option autoImplicit false

/-! # Decimal text of binary floats

Writing takes the shortest decimal that reads back as the value, and lays it out without an
exponent. Reading takes any decimal, computes it exactly and rounds once. -/

-- Powers are those of the core library, whatever else is imported.
attribute [local instance (high)] instPowNat

namespace Contracts

/-! ## The shortest decimal -/

/-- A number of the form `digits * 10 ^ exponent`. -/
structure Decimal where
  digits : Nat
  exponent : Int
deriving DecidableEq

/-- The number of decimal digits of `n`; zero has one. -/
def digitCount (n : Nat) : Nat := (Nat.toDigits 10 n).length

/-- The exponent of the leading decimal digit of `num / den`, both positive. -/
def leadingExponent (num den : Nat) : Int :=
  if den ≤ num then digitCount (num / den) - 1
  else -(digitCount ((den + num - 1) / num - 1))

/-- The multiple of `step` nearest to `value` among its two neighbours that lie between the
bounds, the greater one on a tie. The bounds themselves count if `closed`. -/
def nearestMultiple? (step low value high : Nat) (closed : Bool) : Option Nat :=
  let down := value / step
  let inside (d : Nat) : Bool :=
    if closed then low ≤ d * step && d * step ≤ high else low < d * step && d * step < high
  match inside down, inside (down + 1) with
  | true, true =>
      some (if value - down * step < (down + 1) * step - value then down else down + 1)
  | true, false => some down
  | false, true => some (down + 1)
  | false, false => none

/-- The decimal with the fewest digits that reads back as the positive magnitude of a code, and
among those the nearest. Halfway to either neighbour still reads back if the code is even. The
first grid is one place coarser than the leading digit, for a magnitude just below a power of ten.
Seventeen digits always suffice; all digits of the magnitude stand behind them. -/
def FloatType.shortest (t : FloatType) (code : Nat) : Decimal :=
  let value := 2 * t.units code
  let low := t.units (code - 1) + t.units code
  let high := t.units code + t.units (code + 1)
  let one := 2 <<< t.scale
  let top := leadingExponent value one
  let grid (n : Nat) : Option Decimal :=
    let exponent := top + 1 - n
    let up := 10 ^ exponent.toNat
    let down := 10 ^ (-exponent).toNat
    (nearestMultiple? (up * one) (low * down) (value * down) (high * down) (code % 2 == 0)).map
      (⟨·, exponent⟩)
  ((List.range 18).findSome? grid).getD ⟨t.units code * 5 ^ t.scale, -t.scale⟩

/-- The decimal written out without an exponent. -/
def Decimal.toText (d : Decimal) : String :=
  let digits := Nat.toDigits 10 d.digits
  let zeros (n : Nat) : List Char := List.replicate n '0'
  if 0 ≤ d.exponent then String.ofList (digits ++ zeros d.exponent.toNat)
  else
    let places := (-d.exponent).toNat
    let padded := zeros (places + 1 - digits.length) ++ digits
    let whole := padded.length - places
    String.ofList (padded.take whole ++ '.' :: padded.drop whole)

/-- The text of a value: the shortest decimal under a sign, or the name of a special value. -/
def BinaryFloat.toText {t : FloatType} : BinaryFloat t → String
  | .nan => "NaN"
  | .infinite negative => (if negative then "-" else "") ++ "inf"
  | .finite negative code =>
      (if negative then "-" else "") ++
        if code.val = 0 then "0" else (t.shortest code).toText

/-! ## Reading -/

/-- The number that a nonempty run of digits denotes. -/
def readDigits? (text : List Char) : Option Nat :=
  if text ≠ [] ∧ text.all Char.isDigit then some (Nat.ofDigitChars 10 text 0) else none

/-- Split off a sign; the first component says whether it is a minus. -/
def splitSign : List Char → Bool × List Char
  | '-' :: rest => (true, rest)
  | '+' :: rest => (false, rest)
  | text => (false, text)

/-- Read digits around an optional point, and an optional exponent. -/
def Decimal.ofText? (text : List Char) : Option Decimal :=
  let (whole, rest) := text.span Char.isDigit
  let (fraction, rest) := match rest with
    | '.' :: rest => rest.span Char.isDigit
    | _ => ([], rest)
  match readDigits? (whole ++ fraction), rest with
  | some digits, [] => some ⟨digits, -fraction.length⟩
  | some digits, c :: rest =>
      if c = 'e' ∨ c = 'E' then
        let (negative, rest) := splitSign rest
        (readDigits? rest).map fun n =>
          ⟨digits, (if negative then -(n : Int) else n) - fraction.length⟩
      else none
  | none, _ => none

/-- The value nearest to a decimal under a sign. Decimals of more than four hundred places to
either side of the point are beyond every magnitude, or below half the least. -/
def BinaryFloat.ofDecimal (t : FloatType) (negative : Bool) (d : Decimal) : BinaryFloat t :=
  let size := d.exponent + digitCount d.digits
  if d.digits = 0 ∨ size < -400 then .zero t negative
  else if 400 < size then .infinite negative
  else
    .round t negative ((d.digits * 10 ^ d.exponent.toNat) <<< t.scale) (10 ^ (-d.exponent).toNat)

/-- Read a value: a sign, and a decimal or the name of a special value in any case. -/
def BinaryFloat.ofText? (t : FloatType) (text : List Char) : Option (BinaryFloat t) :=
  let (negative, text) := splitSign text
  let word := String.ofList (text.map Char.toLower)
  if word = "nan" then some .nan
  else if word = "inf" ∨ word = "infinity" then some (.infinite negative)
  else (Decimal.ofText? text).map (.ofDecimal t negative)

end Contracts
