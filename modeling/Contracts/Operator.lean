set_option autoImplicit false

/-! # Operator vocabulary

The binary operators a contract may ask for, the side of an operator on which the adapted
instance stands, and the two flavours of conversion.

`Side.arrange_opposite` says that changing the side and exchanging the operands cancel out. -/

namespace Contracts

/-- A binary operator. -/
inductive BinaryOp
  | add | sub | mul | div | mod
  | eq | ne | lt | gt | le | ge
  | bitAnd | bitOr | bitXor
deriving DecidableEq

/-- Every operator, arithmetic first, then comparisons, then bitwise ones. -/
def BinaryOp.all : List BinaryOp :=
  [.add, .sub, .mul, .div, .mod, .eq, .ne, .lt, .gt, .le, .ge, .bitAnd, .bitOr, .bitXor]

/-- The symbol the operator is written with. -/
def BinaryOp.symbol : BinaryOp → String
  | .add => "+"
  | .sub => "-"
  | .mul => "*"
  | .div => "/"
  | .mod => "%"
  | .eq => "=="
  | .ne => "!="
  | .lt => "<"
  | .gt => ">"
  | .le => "<="
  | .ge => ">="
  | .bitAnd => "&"
  | .bitOr => "|"
  | .bitXor => "^"

/-- The operator written with a symbol, if there is one. -/
def BinaryOp.ofSymbol? (symbol : String) : Option BinaryOp :=
  BinaryOp.all.find? (·.symbol == symbol)

theorem BinaryOp.mem_all (op : BinaryOp) : op ∈ BinaryOp.all := by
  cases op <;> decide

/-- Sums, differences, products, quotients and remainders. -/
def BinaryOp.isArithmetic : BinaryOp → Bool
  | .add | .sub | .mul | .div | .mod => true
  | _ => false

/-- Equality and order. -/
def BinaryOp.isComparison : BinaryOp → Bool
  | .eq | .ne | .lt | .gt | .le | .ge => true
  | _ => false

/-- Equality and its negation. -/
def BinaryOp.isEquality : BinaryOp → Bool
  | .eq | .ne => true
  | _ => false

/-- Operators on single bits. -/
def BinaryOp.isBitwise : BinaryOp → Bool
  | .bitAnd | .bitOr | .bitXor => true
  | _ => false

/-! ## Sides -/

/-- The operand that the adapted instance is; the other operand is the operation's parameter. -/
inductive Side
  | left | right
deriving DecidableEq

/-- Put the instance and the other operand into operand order. -/
def Side.arrange {α : Type} (side : Side) (receiver other : α) : α × α :=
  match side with
  | .left => (receiver, other)
  | .right => (other, receiver)

/-- The opposite side. -/
def Side.opposite : Side → Side
  | .left => .right
  | .right => .left

theorem Side.arrange_opposite {α : Type} (side : Side) (a b : α) :
    side.opposite.arrange a b = side.arrange b a := by
  cases side <;> rfl

/-- The side in words. -/
def Side.describe : Side → String
  | .left => "receiver on the left"
  | .right => "receiver on the right"

/-! ## Conversions -/

/-- Explicit conversions are asked for by a cast; implicit ones apply without one. -/
inductive ConversionKind
  | explicit | implicit
deriving DecidableEq

/-- The keyword of the flavour. -/
def ConversionKind.keyword : ConversionKind → String
  | .explicit => "explicit"
  | .implicit => "implicit"

end Contracts
