import Contracts.EvalError
import Contracts.Value

set_option autoImplicit false

/-! # Objects and the effects of members

A `Heap` keeps the fields of every object. Members run in `Eval`: they may read and write fields,
create objects and fail, and what they did before failing stays done.

`fieldValue?_setField` says what a write changes: the one field of the one object. -/

namespace Contracts

/-- Fields by name; no name occurs twice. -/
abbrev Fields := List (String × Value)

/-- Give the named field a value, adding the field if there is none. -/
def Fields.set (name : String) (v : Value) : Fields → Fields
  | [] => [(name, v)]
  | (other, old) :: rest =>
      if other = name then (name, v) :: rest else (other, old) :: Fields.set name v rest

/-- The objects, each by its fields. -/
structure Heap where
  objects : Array Fields := #[]

namespace Heap

/-- The heap with no objects. -/
def empty : Heap := {}

/-- A new object of a type. -/
def alloc (h : Heap) (type : TypeIdx) (fields : Fields) : ObjectRef × Heap :=
  (⟨h.objects.size, type⟩,
    ⟨h.objects.push (fields.foldl (fun done (name, v) => Fields.set name v done) [])⟩)

/-- The fields of an object. -/
def fields (h : Heap) (ref : ObjectRef) : Fields := h.objects[ref.id]?.getD []

/-- The value of a field, if the object has it. -/
def fieldValue? (h : Heap) (ref : ObjectRef) (name : String) : Option Value :=
  (h.fields ref).lookup name

/-- The heap after a write to a field. -/
def setField (h : Heap) (ref : ObjectRef) (name : String) (v : Value) : Heap :=
  ⟨h.objects.modify ref.id (Fields.set name v)⟩

end Heap

theorem Fields.lookup_set (fields : Fields) (name other : String) (v : Value) :
    (Fields.set name v fields).lookup other =
      if other = name then some v else fields.lookup other := by
  induction fields with
  | nil =>
      by_cases h : other = name
      · simp [Fields.set, h]
      · simp [Fields.set, List.lookup_cons, h, beq_eq_false_iff_ne.2 h]
  | cons field rest ih =>
      obtain ⟨first, old⟩ := field
      by_cases hf : first = name
      · subst hf
        by_cases h : other = first
        · simp [Fields.set, h]
        · simp [Fields.set, List.lookup_cons, h, beq_eq_false_iff_ne.2 h]
      · by_cases h : other = first
        · subst h
          simp [Fields.set, hf]
        · simp only [Fields.set, hf, if_false, List.lookup_cons, beq_eq_false_iff_ne.2 h, ih]

/-- A write changes the one field of the one object. -/
theorem Heap.fieldValue?_setField (h : Heap) (ref other : ObjectRef) (name field : String)
    (v : Value) (live : ref.id < h.objects.size) :
    (h.setField ref name v).fieldValue? other field =
      if other.id = ref.id ∧ field = name then some v else h.fieldValue? other field := by
  unfold Heap.fieldValue? Heap.fields Heap.setField
  rw [Array.getElem?_modify]
  by_cases he : ref.id = other.id
  · rw [if_pos he, ← he, Array.getElem?_eq_getElem live]
    simp [Fields.lookup_set]
  · rw [if_neg he]
    simp [Ne.symm he]

/-! ## Members -/

/-- A computation that works on the heap and may fail. -/
abbrev Eval (α : Type) := EStateM EvalError Heap α

/-- What a member does with its receiver, if it has one, and its arguments. Methods, conversions
and property accessors of an instance receive it; static methods and operators do not, and an
operator's arguments are its left and right operand. -/
abbrev Body := Option Value → List Value → Eval Value

/-- The outcome of a computation that does not touch the heap. -/
def Eval.ofExcept {α : Type} : Except EvalError α → Eval α
  | .ok a => pure a
  | .error e => throw e

/-- The object that a member of a declared type runs on. -/
def receiverObject (receiver : Option Value) (operation : String) : Except EvalError ObjectRef :=
  match receiver with
  | none | some .null => .error (.nullReceiver operation)
  | some (.object ref) => .ok ref
  | some v => .error (.typeMismatch "object" v.typeName)

/-- Read a field that must be there. -/
def readField (ref : ObjectRef) (name : String) : Eval Value := do
  match (← get).fieldValue? ref name with
  | some v => pure v
  | none => throw (.undefinedField name)

/-- Write a field. -/
def writeField (ref : ObjectRef) (name : String) (v : Value) : Eval Unit :=
  modify (·.setField ref name v)

/-- Create an object. -/
def newObject (type : TypeIdx) (fields : Fields) : Eval Value :=
  modifyGet fun h => let (ref, h) := h.alloc type fields; (.object ref, h)

end Contracts
