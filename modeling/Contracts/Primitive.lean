import Contracts.Arithmetic
import Contracts.Assignability

set_option autoImplicit false

/-! # Primitive operations

Built-in types convert into each other and combine by operators without any declared member. The
operations are listed in a fixed order, and the first that fits is the one that is used. -/

namespace Contracts

/-- A built-in conversion or operator. -/
inductive Primitive
  | conversion (kind : ConversionKind) (source target : Builtin)
  | operator (op : BinaryOp) (left right result : Builtin)
deriving DecidableEq

namespace Primitive

/-- The type converted from, or of the left operand. -/
def left : Primitive → Builtin
  | .conversion _ source _ => source
  | .operator _ left _ _ => left

/-- The type of the right operand; a conversion has none. -/
def right? : Primitive → Option Builtin
  | .conversion _ _ _ => none
  | .operator _ _ right _ => some right

/-- The type of the result. -/
def result : Primitive → Builtin
  | .conversion _ _ target => target
  | .operator _ _ _ result => result

/-- Run the operation. Conversions have no use for a right operand; operators need one. -/
def eval (p : Primitive) (left : Value) (right : Option Value) : Except EvalError Value :=
  match p, right with
  | .conversion kind _ target, _ =>
      let converted := match kind with
        | .explicit => left.castNumeric? target
        | .implicit => left.widen? target
      match converted with
      | some v => .ok v
      | none => .error (.invalidConversion left.typeName target.name)
  | .operator op _ _ _, some right => op.eval left right
  | .operator op _ _ _, none => .error (.wrongArgCount op.symbol 2 1)

/-! ## The list -/

/-- Explicit conversions between any two numeric types, then implicit ones where the one type
widens to the other. -/
def conversions : List Primitive :=
  (Builtin.numeric.flatMap fun s =>
      (Builtin.numeric.filter (s ≠ ·)).map (.conversion .explicit s)) ++
    Builtin.numeric.flatMap fun s =>
      (Builtin.numeric.filter s.widensTo).map (.conversion .implicit s)

/-- The numeric operators on operands that have a promoted type, which is also the result unless
the operator compares. Floats have no bitwise operators. -/
def numericOperators : List Primitive :=
  BinaryOp.all.flatMap fun op => Builtin.numeric.flatMap fun l => Builtin.numeric.filterMap fun r =>
    match l.promote r with
    | none => none
    | some p =>
        if op.isBitwise && p.isFloat then none
        else some (.operator op l r (if op.isComparison then .bool else p))

/-- The operators on truth values. -/
def boolOperators : List Primitive :=
  [.bitAnd, .bitOr, .bitXor, .eq, .ne].map fun op => .operator op .bool .bool .bool

/-- Equality of texts, and joining a text with anything. -/
def textOperators : List Primitive :=
  [.operator .eq .str .str .bool, .operator .ne .str .str .bool,
    .operator .add .str .object .str, .operator .add .object .str .str]

/-- All primitive operations. -/
def all : List Primitive :=
  conversions ++ numericOperators ++ boolOperators ++ textOperators

/-- The conversion of a kind between exactly two types, if it is primitive. -/
def findConversion? (kind : ConversionKind) (source target : TypeRef) : Option Primitive :=
  all.find? fun
    | .conversion k s t => k = kind ∧ .builtin s = source ∧ .builtin t = target
    | .operator _ _ _ _ => false

/-- The first operator that takes the two operands and gives a result assignable to the wanted
type. -/
def findOperator? (r : Registry) (op : BinaryOp) (left right result : TypeRef) : Option Primitive :=
  all.find? fun
    | .conversion _ _ _ => false
    | .operator o l m n =>
        o = op && r.isAssignable left (.builtin l) && r.isAssignable right (.builtin m) &&
          r.isAssignable (.builtin n) result

end Primitive

end Contracts
