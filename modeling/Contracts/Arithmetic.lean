import Contracts.EvalError
import Contracts.Value.Numeric
import Contracts.Value.Text

set_option autoImplicit false

/-! # Binary operators on built-in values

Two numbers meet in their promoted type. There integers wrap, except that dividing by zero and
dividing the least integer by minus one fail; floats follow the rules of `BinaryFloat`. Truth
values and text have operators of their own, and `+` with text on either side joins texts. -/

namespace Contracts

/-- The text of two values, one after the other. -/
def concat (left right : Value) : Value := .str (left.text ++ right.text)

/-- Operators on truth values. -/
def BinaryOp.evalBool (op : BinaryOp) (a b : Bool) : Except EvalError Value :=
  match op with
  | .bitAnd => .ok (.bool (a && b))
  | .bitOr => .ok (.bool (a || b))
  | .bitXor => .ok (.bool (a ^^ b))
  | .eq => .ok (.bool (a == b))
  | .ne => .ok (.bool (a != b))
  | op => .error (.invalidBinaryOp "bool" op)

/-- Operators on text, where `none` is the absent text. -/
def BinaryOp.evalText (op : BinaryOp) (a b : Option String) : Except EvalError Value :=
  match op with
  | .eq => .ok (.bool (a == b))
  | .ne => .ok (.bool (a != b))
  | op => .error (.invalidBinaryOp "str" op)

/-- Operators on two integers in the type they are promoted to. -/
def BinaryOp.evalInt (op : BinaryOp) (t : IntType) (a b : Int) : Except EvalError Value :=
  let bits (n : Int) : BitVec t.width := BitVec.ofInt t.width n
  match op with
  | .add => .ok (t.wrap (a + b))
  | .sub => .ok (t.wrap (a - b))
  | .mul => .ok (t.wrap (a * b))
  | .div =>
      if b = 0 then .error .divisionByZero
      else if t.Holds (a.tdiv b) then .ok (t.wrap (a.tdiv b))
      else .error (.integerOverflow "division")
  | .mod =>
      if b = 0 then .error .moduloByZero
      else if t.Holds (a.tdiv b) then .ok (t.wrap (a.tmod b))
      else .error (.integerOverflow "remainder")
  | .eq => .ok (.bool (a == b))
  | .ne => .ok (.bool (a != b))
  | .lt => .ok (.bool (a < b))
  | .gt => .ok (.bool (b < a))
  | .le => .ok (.bool (a ≤ b))
  | .ge => .ok (.bool (b ≤ a))
  | .bitAnd => .ok (.int t (bits a &&& bits b))
  | .bitOr => .ok (.int t (bits a ||| bits b))
  | .bitXor => .ok (.int t (bits a ^^^ bits b))

/-- Operators on two floats, with a result of the type they are promoted to. -/
def BinaryOp.evalFloat (op : BinaryOp) (t : FloatType) (a b : BinaryFloat .f64) :
    Except EvalError Value :=
  let result (x : BinaryFloat .f64) : Except EvalError Value := .ok (.float t (x.cast t))
  let test (holds : Int → Int → Bool) : Except EvalError Value :=
    .ok (.bool (a.compareWith holds b))
  match op with
  | .add => result (a.add b)
  | .sub => result (a.sub b)
  | .mul => result (a.mul b)
  | .div => result (a.div b)
  | .mod => result (a.rem b)
  | .eq => test (· == ·)
  | .ne => .ok (.bool (!a.equal b))
  | .lt => test (· < ·)
  | .gt => test (· > ·)
  | .le => test (· ≤ ·)
  | .ge => test (· ≥ ·)
  | .bitAnd | .bitOr | .bitXor => .error (.invalidBinaryOp t.name op)

/-- Whether the value is text or absent, and which text it is. -/
def Value.nullableText? : Value → Option (Option String)
  | .str text => some (some text)
  | .null => some none
  | _ => none

/-- Operators on two values that are not both truth values or text. -/
def BinaryOp.evalNumeric (op : BinaryOp) (left right : Value) : Except EvalError Value :=
  match left, right with
  | .int s a, .int t b =>
      match s.promote t with
      | some p => op.evalInt p (s.toInt a) (t.toInt b)
      | none => .error (.binaryTypeMismatch s.name t.name)
  | .int s a, .float t y => op.evalFloat t (.ofInt .f64 (s.toInt a)) (y.cast .f64)
  | .float s x, .int t b => op.evalFloat s (x.cast .f64) (.ofInt .f64 (t.toInt b))
  | .float s x, .float t y => op.evalFloat (s.promote t) (x.cast .f64) (y.cast .f64)
  | left, right => .error (.binaryTypeMismatch left.typeName right.typeName)

/-- The result of an operator on two values. -/
def BinaryOp.eval (op : BinaryOp) (left right : Value) : Except EvalError Value :=
  match left.bool?, right.bool? with
  | some a, some b => op.evalBool a b
  | _, _ =>
      if op = .add ∧ (left.str?.isSome ∨ right.str?.isSome) then .ok (concat left right)
      else
        match left.nullableText?, right.nullableText? with
        | some a, some b => op.evalText a b
        | _, _ => op.evalNumeric left right

end Contracts
