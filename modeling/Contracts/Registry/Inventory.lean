import Contracts.Registry

set_option autoImplicit false

/-! # Members of a type

The public members that a type offers. Instance methods and properties include those of the base
chain, nearest first; static methods, operators and conversions are those of the type itself. -/

namespace Contracts

/-- Which methods a query asks for. -/
structure MethodFilter where
  instanceMethods : Bool := true
  staticMethods : Bool := true

/-- Whether the filter lets the method through. -/
def MethodFilter.admits (f : MethodFilter) (m : MethodDef) : Bool :=
  if m.isStatic then f.staticMethods else f.instanceMethods

/-- Only instance methods. -/
def MethodFilter.onInstance : MethodFilter := { staticMethods := false }

/-- Only static methods. -/
def MethodFilter.onType : MethodFilter := { instanceMethods := false }

theorem MethodFilter.admits_onInstance (m : MethodDef) : onInstance.admits m = !m.isStatic := by
  cases hstatic : m.isStatic <;> simp [admits, onInstance, hstatic]

theorem MethodFilter.admits_onType (m : MethodDef) : onType.admits m = m.isStatic := by
  cases hstatic : m.isStatic <;> simp [admits, onType, hstatic]

namespace Registry

/-- The types whose members a type has, itself first, with their members. -/
def memberSources (r : Registry) : ImplType → List (ImplType × Members)
  | .builtin b => ((r.builtinMembers b).map (.builtin b, ·)).toList
  | .named idx => (r.baseChain idx).map fun (idx, decl) => (.named idx, decl.members)

/-- All methods of a type; static ones are not inherited. -/
def allMethods (r : Registry) (ty : ImplType) : List (Located MethodDef) :=
  match r.memberSources ty with
  | [] => []
  | (owner, own) :: bases =>
      locate owner own.methods ++
        bases.flatMap fun (owner, members) =>
          (locate owner members.methods).filter (!·.decl.isStatic)

/-- The public methods of a type that pass the filter, of one name and of one arity if these are
given. -/
def methods (r : Registry) (ty : ImplType) (name : Option String) (arity : Option Nat)
    (filter : MethodFilter) : List (Located MethodDef) :=
  (r.allMethods ty).filter fun m =>
    m.decl.isPublic && filter.admits m.decl && name.all (· == m.decl.name) &&
      arity.all (· == m.decl.arity)

/-- The operators of a type, of one symbol if it is given. -/
def operators (r : Registry) (ty : ImplType) (op : Option BinaryOp) : List (Located OperatorDef) :=
  (locate ty ((r.members? ty).getD {}).operators).filter fun o => op.all (· == o.decl.op)

/-- The conversions of one kind from a type that the type itself declares. -/
def conversions (r : Registry) (ty : ImplType) (kind : ConversionKind) :
    List (Located ConversionDef) :=
  (locate ty ((r.members? ty).getD {}).conversions).filter fun c =>
    c.decl.kind = kind ∧ c.decl.source = ty.toRef

/-- The public property of a name that is nearest on the base chain. -/
def property? (r : Registry) (ty : ImplType) (name : String) : Option PropertyDef :=
  (r.memberSources ty).findSome? fun (_, members) =>
    members.properties.find? fun p => p.name == name && p.isPublic

end Registry

end Contracts
