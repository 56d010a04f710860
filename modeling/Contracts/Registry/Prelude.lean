import Contracts.Parse
import Contracts.Registry
import Contracts.Value.Text

set_option autoImplicit false

/-! # Members of built-in types

Every built-in type but `void` has a method `to_string`; the numeric types and `bool` can also be
parsed from text. -/

namespace Contracts

namespace Registry

/-- The method that gives the text of its receiver. -/
def toStringMethod : MethodDef where
  name := "to_string"
  params := []
  ret := .str
  body := fun receiver _ => pure (.str ((receiver.map Value.text).getD ""))

/-- The static method that reads a value of a type from text. -/
def parseMethod (b : Builtin) : MethodDef where
  name := "parse"
  params := [.str]
  ret := .builtin b
  isStatic := true
  body := fun _ args =>
    match args.head?.bind Value.str? with
    | some text => Eval.ofExcept (b.parse text)
    | none => throw (.typeMismatch "str" ((args.head?.map Value.typeName).getD "void"))

/-- The members that a built-in type starts with. -/
def preludeMembers (b : Builtin) : Members where
  methods :=
    if b.isNumeric ∨ b = .bool then [toStringMethod, parseMethod b] else [toStringMethod]

/-- The registry in which built-in types have the members that they start with. -/
def withPrelude : Registry :=
  (Builtin.all.filter (· ≠ .void)).foldl
    (fun r b => r.extendBuiltin b fun _ => { members := preludeMembers b }) .empty

end Registry

end Contracts
