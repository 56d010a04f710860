import Contracts.Assignability
import Contracts.EvalError
import Contracts.Value.Numeric

set_option autoImplicit false

/-! # Coercions

How a value that crosses the boundary of an adapter becomes one of the type on the other side, and
which values an operation accepts at all. -/

namespace Contracts

/-- What is done to a value on its way from one type to another. -/
inductive Coercion
  /-- Nothing: the types are the same, or both generic parameters. -/
  | identity
  /-- A value type becomes an `object`. -/
  | box
  /-- A reference becomes one to a base class, a contract or `object`. -/
  | upcast
  /-- A number becomes one of a wider type. -/
  | widen (source target : Builtin)
deriving DecidableEq

/-- The coercion between different types that keeps the value as it is, if the one type is
assignable to the other. -/
def Registry.keepingCoercion? (r : Registry) (source target : TypeRef) : Option Coercion :=
  if !r.isAssignable source target then none
  else if target = .object ∧ r.isValueType source then some .box
  else some .upcast

/-- The coercion from one type to another, if the one is assignable to the other. -/
def Registry.coercion? (r : Registry) (source target : TypeRef) : Option Coercion :=
  if source = target then some .identity
  else
    match source, target with
    | .param _, .param _ => some .identity
    | .builtin a, .builtin b =>
        if a.widensTo b then some (.widen a b) else r.keepingCoercion? source target
    | _, _ => r.keepingCoercion? source target

/-- Whether the coercion does nothing. -/
def Coercion.isIdentity (c : Coercion) : Bool := c = .identity

/-- Apply a coercion. Boxing and upcasts keep the value, which knows its own type. -/
def Coercion.apply (c : Coercion) (v : Value) : Except EvalError Value :=
  match c with
  | .identity | .box | .upcast => .ok v
  | .widen _ target =>
      match v.widen? target with
      | some w => .ok w
      | none => .error (.invalidConversion v.typeName target.name)

/-- The coercion in words. -/
def Coercion.describe : Coercion → String
  | .identity => "identity"
  | .box => "box"
  | .upcast => "upcast"
  | .widen source target => s!"widen {source.name} {target.name}"

/-- Whether a value may be passed where a type is expected. A built-in type other than `object`
takes exactly its own values; types that are not value types take `null`, and declared types the
objects that are assignable to them. -/
def Registry.accepts (r : Registry) (ty : TypeRef) (v : Value) : Bool :=
  match ty, v with
  | _, .void => false
  | .param _, _ | .builtin .object, _ => true
  | ty, .null => !r.isValueType ty
  | .builtin b, v => v.builtin? = some b
  | .named idx, .object ref => r.isAssignable (.named ref.type) (.named idx)
  | .named _, _ => false

namespace Registry

variable {r : Registry} {ty : TypeRef} {v : Value}

/-- No type takes `void`. -/
theorem ne_void_of_accepts (h : r.accepts ty v = true) : v ≠ .void := by
  rintro rfl
  simp [accepts] at h

theorem accepts_param (i : Nat) (h : v ≠ .void) : r.accepts (.param i) v = true := by
  cases v <;> simp_all [accepts]

theorem accepts_object (h : v ≠ .void) : r.accepts .object v = true := by
  cases v <;> simp_all [accepts]

end Registry

end Contracts
