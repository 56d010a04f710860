import Contracts.Proofs.Computation
import Contracts.Proofs.ExactDeclaration
import Contracts.Proofs.PropertyAccess

set_option autoImplicit false

/-! # Writing through to a field

A property that is a field is read and written through adapters of contracts that ask for it.
`Adapter.writes_through` says that any number of adapters may do so at once: whatever they have read
and written, through whichever contract and on whichever objects, every field of every object has
the value last written to it, or else the one that it had at first. One access changes one field of
one object at most (`Access.step`), and the rest follows by induction. -/

namespace Contracts

/-! ## Contracts that ask for a property -/

/-- What a contract asks for that wants to read a property. -/
def Operation.ofGetter (p : String) (ty : TypeRef) : Operation where
  name := p
  kind := .getter
  params := []
  ret := ty

/-- What a contract asks for that wants to write a property. -/
def Operation.ofSetter (p : String) (ty : TypeRef) : Operation where
  name := p
  kind := .setter
  params := [ty]
  ret := .void

/-- The contract asks to read and write a property, and calls nothing else by the same names. -/
structure ContractSpec.Opens (spec : ContractSpec) (p : String) (ty : TypeRef) : Prop where
  getter : .ofGetter p ty ∈ spec.operations
  setter : .ofSetter p ty ∈ spec.operations
  only : ∀ op ∈ spec.operations, op.slotName = "get_" ++ p ∨ op.slotName = "set_" ++ p →
    op = .ofGetter p ty ∨ op = .ofSetter p ty

namespace ContractSpec.Opens

variable {spec : ContractSpec} {p : String} {ty : TypeRef} {op : Operation}

theorem eq_getter (opens : spec.Opens p ty) (hop : op ∈ spec.operations)
    (hname : op.slotName = "get_" ++ p) : op = .ofGetter p ty := by
  rcases opens.only op hop (Or.inl hname) with rfl | rfl
  · rfl
  · rcases Operation.slotName_eq_get_iff.1 hname with ⟨hkind, -⟩ | ⟨-, hkind, -⟩
    · exact absurd hkind (by simp [Operation.ofSetter])
    · exact absurd rfl hkind

theorem eq_setter (opens : spec.Opens p ty) (hop : op ∈ spec.operations)
    (hname : op.slotName = "set_" ++ p) : op = .ofSetter p ty := by
  rcases opens.only op hop (Or.inr hname) with rfl | rfl
  · have hstart : "get_" ++ p ≠ "set_" ++ p := fun h => by simpa using congrArg String.toList h
    exact absurd hname hstart
  · rfl

end ContractSpec.Opens

namespace Registry

variable {r : Registry} {config : Config} {implTy : ImplType} {p : String} {ty : TypeRef}

theorem resolve_ofGetter (field : r.property? implTy p = some (.ofField p ty)) :
    r.resolve config implTy (.ofGetter p ty) =
      some { operation := .ofGetter p ty, target := .property (.ofField p ty) } := by
  show r.resolveGetter implTy (.ofGetter p ty) = _
  simp [resolveGetter, Operation.ofGetter, field, PropertyDef.ofField, coercion?_self]

theorem resolve_ofSetter (field : r.property? implTy p = some (.ofField p ty)) :
    r.resolve config implTy (.ofSetter p ty) = some
      { operation := .ofSetter p ty
        target := .property (.ofField p ty)
        args := [.identity] } := by
  show r.resolveSetter implTy (.ofSetter p ty) = _
  simp [resolveSetter, Operation.ofSetter, field, PropertyDef.ofField, coercion?_self]

end Registry

/-! ## Single accesses -/

namespace Adapter

/-- The object that the adapter holds, if it holds one. -/
def object? (a : Adapter) : Option ObjectRef :=
  match a.self? with
  | some (.object ref) => some ref
  | _ => none

/-- The adapter opens a property: the type that it was made for has the property first, as a field,
and its contract asks for the property. -/
def Opens (a : Adapter) (p : String) (ty : TypeRef) : Prop :=
  ∃ r config implTy spec, a.MadeFor r config implTy spec ∧
    r.property? implTy p = some (.ofField p ty) ∧ spec.Opens p ty

variable {a : Adapter} {p : String} {ty : TypeRef}

theorem find?_of_unique {α : Type} {xs : List α} {q : α → Bool} {x : α} (hx : x ∈ xs)
    (hq : q x = true) (unique : ∀ y ∈ xs, q y = true → y = x) : xs.find? q = some x := by
  obtain ⟨y, hy⟩ := Option.isSome_iff_exists.1 (List.find?_isSome.2 ⟨x, hx, hq⟩)
  rw [hy, unique y (List.mem_of_find?_eq_some hy) (List.find?_some hy)]

/-- Reading the property reads the field. -/
theorem get_of_opens (opens : a.Opens p ty) (now : Registry) :
    a.get now p = (do
      let self ← Eval.ofExcept (requireInstance a.self? ("get_" ++ p))
      readField (← Eval.ofExcept (receiverObject (some self) p)) p) := by
  obtain ⟨r, config, implTy, spec, made, field, hspec⟩ := opens
  have first : spec.operations.find?
      (fun op => op.slotName = "get_" ++ p && op.accepts now []) = some (.ofGetter p ty) := by
    refine find?_of_unique hspec.getter (by simp [Operation.ofGetter, Operation.slotName,
      Operation.accepts]) fun op hop hpasses => ?_
    simp only [Bool.and_eq_true, decide_eq_true_eq] at hpasses
    exact hspec.eq_getter hop hpasses.1
  obtain ⟨b, hresolve, hcall⟩ := made.call_of_find? now first
  obtain rfl := Option.some.inj (hresolve.symm.trans (Registry.resolve_ofGetter field))
  rw [get, hcall]
  simp only [Binding.run, Operation.ofGetter, PropertyDef.ofField, Coercion.apply,
    Eval.ofExcept_ok, bind_pure]

/-- Writing a value of the property's type writes the field. -/
theorem set_of_accepts (opens : a.Opens p ty) {now : Registry} {x : Value}
    (accepted : now.accepts ty x = true) :
    a.set now p x = (do
      let self ← Eval.ofExcept (requireInstance a.self? ("set_" ++ p))
      writeField (← Eval.ofExcept (receiverObject (some self) p)) p x
      pure .void) := by
  obtain ⟨r, config, implTy, spec, made, field, hspec⟩ := opens
  have first : spec.operations.find?
      (fun op => op.slotName = "set_" ++ p && op.accepts now [x]) = some (.ofSetter p ty) := by
    refine find?_of_unique hspec.setter (by simp [Operation.ofSetter, Operation.slotName,
      Operation.accepts, accepted]) fun op hop hpasses => ?_
    simp only [Bool.and_eq_true, decide_eq_true_eq] at hpasses
    exact hspec.eq_setter hop hpasses.1
  obtain ⟨b, hresolve, hcall⟩ := made.call_of_find? now first
  obtain rfl := Option.some.inj (hresolve.symm.trans (Registry.resolve_ofSetter field))
  rw [set, hcall]
  simp only [Binding.run, Operation.ofSetter, PropertyDef.ofField, Binding.coercedArg,
    List.headD_cons, Coercion.apply, Eval.ofExcept_ok, pure_bind, bind_assoc]

/-- Another value is refused. -/
theorem set_of_rejected (opens : a.Opens p ty) {now : Registry} {x : Value}
    (rejected : now.accepts ty x = false) :
    a.set now p x =
      throw (.wrongArgType ("set_" ++ p) (now.typeName ty) (now.valueTypeName x)) := by
  obtain ⟨r, config, implTy, spec, made, field, hspec⟩ := opens
  have hsetter : ∀ s ∈ a.type.slots, s.name = "set_" ++ p →
      s.binding.operation = .ofSetter p ty := fun s hs hname => by
    obtain ⟨hop, hslot⟩ := made.slot_of_mem hs
    exact hspec.eq_setter hop (hslot.symm.trans hname)
  have hmismatch : AdapterType.mismatch? now [ty] [x] = some (ty, x) := by
    simp [AdapterType.mismatch?, rejected]
  have hrejected : ∀ s ∈ a.type.slots, s.name = "set_" ++ p → s.accepts now [x] = false :=
    fun s hs hname => by
      rw [Slot.accepts, hsetter s hs hname]
      simp [Operation.accepts, Operation.ofSetter, rejected]
  have hcounted : ∃ s ∈ a.type.slots, s.name = "set_" ++ p ∧ s.arity = [x].length := by
    obtain ⟨s, hs, hoperation⟩ := List.mem_map.1 (made.operations ▸ hspec.setter)
    refine ⟨s, hs, ?_, ?_⟩
    · rw [(made.slot_of_mem hs).2, hoperation]
      rfl
    · rw [Slot.arity, hoperation]
      rfl
  obtain ⟨s, ty', x', hlast, hfirst, hdispatch⟩ :=
    AdapterType.dispatch_of_counted made.made hrejected hcounted
  have hname : s.name = "set_" ++ p := AdapterType.name_of_find? hlast
  rw [hsetter s (List.mem_reverse.1 (List.mem_of_find?_eq_some hlast)) hname] at hfirst
  obtain ⟨rfl, rfl⟩ := Prod.mk.inj (Option.some.inj (hmismatch.symm.trans hfirst))
  rw [set, call, a.type.invoke_eq, hdispatch]

/-! ### On objects, and on other values -/

variable {ref : ObjectRef}

theorem object?_eq_some_iff : a.object? = some ref ↔ a.self? = some (.object ref) := by
  unfold object?
  split
  · rename_i ref' hself
    rw [hself, Option.some.injEq, Option.some.injEq, Value.object.injEq]
  · rename_i hself
    exact iff_of_false (by simp) (hself ref)

theorem get_of_object (opens : a.Opens p ty) (held : a.object? = some ref) (now : Registry)
    (h : Heap) : a.get now p h = match h.fieldValue? ref p with
      | some v => .ok v h
      | none => .error (.undefinedField p) h := by
  rw [get_of_opens opens, object?_eq_some_iff.1 held]
  show (match h.fieldValue? ref p with
    | some v => pure v
    | none => throw (.undefinedField p) : Eval Value) h = _
  cases h.fieldValue? ref p <;> rfl

theorem set_of_object (opens : a.Opens p ty) (held : a.object? = some ref) {now : Registry}
    {x : Value} (accepted : now.accepts ty x = true) (h : Heap) :
    a.set now p x h = .ok .void (h.setField ref p x) := by
  rw [set_of_accepts opens accepted, object?_eq_some_iff.1 held]
  rfl

theorem exists_error_of_no_object (unheld : a.object? = none) (name : String)
    (next : ObjectRef → Eval Value) (h : Heap) :
    ∃ e, (do
      let self ← Eval.ofExcept (requireInstance a.self? name)
      next (← Eval.ofExcept (receiverObject (some self) p)) : Eval Value) h = .error e h := by
  cases hself : a.self? with
  | none => exact ⟨_, rfl⟩
  | some v =>
      cases v with
      | object ref => exact absurd (unheld.symm.trans (object?_eq_some_iff.2 hself)) (by simp)
      | void | null | bool | int | float | str => exact ⟨_, rfl⟩

/-- Without an object there is no field to read or to write. -/
theorem exists_error_of_opens (opens : a.Opens p ty) (unheld : a.object? = none) (now : Registry)
    (h : Heap) : (∃ e, a.get now p h = .error e h) ∧ ∀ x, ∃ e, a.set now p x h = .error e h := by
  refine ⟨?_, fun x => ?_⟩
  · rw [get_of_opens opens]
    exact exists_error_of_no_object unheld _ (readField · p) h
  · cases accepted : now.accepts ty x with
    | true =>
        rw [set_of_accepts opens accepted]
        exact exists_error_of_no_object unheld _ (fun ref => do writeField ref p x; pure .void) h
    | false =>
        rw [set_of_rejected opens accepted]
        exact ⟨_, rfl⟩

end Adapter

/-! ## Any number of accesses -/

/-- A property is read, or written if there is a value for it. The registry says which values are
accepted at the time. -/
structure Access where
  now : Registry
  adapter : Adapter
  property : String
  value? : Option Value

/-- A field of an object has got a value. -/
structure Write where
  object : Nat
  field : String
  value : Value

/-- The value that a write gives to a field of an object, if it is that field's. -/
def Write.into? (w : Write) (ref : ObjectRef) (p : String) : Option Value :=
  if ref.id = w.object ∧ p = w.field then some w.value else none

namespace Access

/-- What the access does. -/
def run (x : Access) : Eval Value :=
  match x.value? with
  | none => x.adapter.get x.now x.property
  | some v => x.adapter.set x.now x.property v

/-- What the access writes, if it is a write and goes well. -/
def write? (x : Access) (h : Heap) : Option Write :=
  match x.value?, x.adapter.object?, outcome x.run h with
  | some v, some ref, .ok _ => some ⟨ref.id, x.property, v⟩
  | _, _, _ => none

/-- The access is one of a property that the adapter opens, and the object that it is one of is
there. -/
structure Proper (x : Access) (h : Heap) : Prop where
  opens : ∃ ty, x.adapter.Opens x.property ty
  live : ∀ ref, x.adapter.object? = some ref → ref.id < h.objects.size

/-- The accesses one after the other. -/
def heapAfter (h : Heap) (past : List Access) : Heap :=
  past.foldl (fun h x => endState x.run h) h

/-- The writes that went well, the last of them first. -/
def writes (h : Heap) : List Access → List Write
  | [] => []
  | x :: rest => writes (endState x.run h) rest ++ (x.write? h).toList

/-- The value that a field of an object was last given. -/
def lastWritten (h : Heap) (past : List Access) (ref : ObjectRef) (p : String) : Option Value :=
  (writes h past).findSome? (·.into? ref p)

variable {x : Access} {h : Heap} {past : List Access}

theorem run_of_read (hvalue : x.value? = none) : x.run = x.adapter.get x.now x.property := by
  rw [run, hvalue]

theorem run_of_write {v : Value} (hvalue : x.value? = some v) :
    x.run = x.adapter.set x.now x.property v := by
  rw [run, hvalue]

/-- Either the access leaves everything as it is, or it writes a value to the property's field of
the adapter's object. -/
theorem run_cases (opens : ∃ ty, x.adapter.Opens x.property ty) (h : Heap) :
    (x.write? h = none ∧ endState x.run h = h) ∨ ∃ ref v, x.adapter.object? = some ref ∧
      x.write? h = some ⟨ref.id, x.property, v⟩ ∧
      endState x.run h = h.setField ref x.property v := by
  obtain ⟨ty, opens⟩ := opens
  cases hobject : x.adapter.object? with
  | none =>
      obtain ⟨⟨e, hget⟩, hset⟩ := Adapter.exists_error_of_opens opens hobject x.now h
      refine Or.inl ⟨by simp [write?, hobject], ?_⟩
      cases hvalue : x.value? with
      | none => rw [run_of_read hvalue, endState, hget]
      | some v =>
          obtain ⟨e, hset⟩ := hset v
          rw [run_of_write hvalue, endState, hset]
  | some ref =>
      cases hvalue : x.value? with
      | none =>
          refine Or.inl ⟨by simp [write?, hvalue], ?_⟩
          rw [run_of_read hvalue, endState, Adapter.get_of_object opens hobject]
          cases h.fieldValue? ref x.property <;> rfl
      | some v =>
          cases accepted : x.now.accepts ty v with
          | true =>
              have hrun : x.run h = .ok .void (h.setField ref x.property v) := by
                rw [run_of_write hvalue, Adapter.set_of_object opens hobject accepted]
              refine Or.inr ⟨ref, v, rfl, ?_, ?_⟩
              · simp only [write?, hvalue, hobject, outcome, hrun]
              · rw [endState, hrun]
          | false =>
              have hrun : ∃ e, x.run h = .error e h := by
                rw [run_of_write hvalue, Adapter.set_of_rejected opens accepted]
                exact ⟨_, rfl⟩
              obtain ⟨e, hrun⟩ := hrun
              refine Or.inl ⟨?_, ?_⟩
              · simp only [write?, hvalue, hobject, outcome, hrun]
              · rw [endState, hrun]

/-- An access changes what it writes and nothing else. -/
theorem step (proper : x.Proper h) :
    (endState x.run h).objects.size = h.objects.size ∧
      ∀ ref p, (endState x.run h).fieldValue? ref p =
        ((x.write? h).toList.findSome? (·.into? ref p)).or (h.fieldValue? ref p) := by
  rcases run_cases proper.opens h with ⟨hwrite, hstate⟩ | ⟨ref, v, hobject, hwrite, hstate⟩
  · rw [hwrite, hstate]
    exact ⟨rfl, fun _ _ => rfl⟩
  · rw [hwrite, hstate]
    refine ⟨by simp [Heap.setField], fun other q => ?_⟩
    rw [Heap.fieldValue?_setField h ref other x.property q v (proper.live ref hobject)]
    by_cases hfield : other.id = ref.id ∧ q = x.property <;> simp [Write.into?, hfield]

/-- What an access is proper for it is proper for later, since objects stay. -/
theorem Proper.later {h' : Heap} (proper : x.Proper h) (hsize : h'.objects.size = h.objects.size) :
    x.Proper h' :=
  ⟨proper.opens, fun ref held => hsize ▸ proper.live ref held⟩

/-- Any number of accesses change what they write and nothing else, and what is written last
stays. -/
theorem steps (proper : ∀ x ∈ past, x.Proper h) :
    (heapAfter h past).objects.size = h.objects.size ∧
      ∀ ref p, (heapAfter h past).fieldValue? ref p =
        (lastWritten h past ref p).or (h.fieldValue? ref p) := by
  induction past generalizing h with
  | nil => exact ⟨rfl, fun _ _ => rfl⟩
  | cons x rest ih =>
      obtain ⟨hfirst, hrest⟩ := List.forall_mem_cons.1 proper
      obtain ⟨hsize, hstep⟩ := step hfirst
      obtain ⟨hsizes, hsteps⟩ := ih fun y hy => (hrest y hy).later hsize
      refine ⟨hsizes.trans hsize, fun ref p => ?_⟩
      calc (heapAfter h (x :: rest)).fieldValue? ref p
          = (lastWritten (endState x.run h) rest ref p).or
              ((endState x.run h).fieldValue? ref p) := hsteps ref p
        _ = (lastWritten (endState x.run h) rest ref p).or
              (((x.write? h).toList.findSome? (·.into? ref p)).or (h.fieldValue? ref p)) := by
            rw [hstep]
        _ = (lastWritten h (x :: rest) ref p).or (h.fieldValue? ref p) := by
            rw [lastWritten, lastWritten, writes, List.findSome?_append, Option.or_assoc]

end Access

namespace Adapter

/-- **Writes go through and touch nothing else.** Adapters open properties that are fields, each its
own, on objects that are there. However these have been read and written through them, every field
of every object has the value that was last written to it, or the one that it had at first. So
reading a property gives that value, or finds no field, and writing to it changes that one field, or
nothing at all if the value is refused for its type. -/
theorem writes_through {h : Heap} {past : List Access} (proper : ∀ x ∈ past, x.Proper h)
    {a : Adapter} {p : String} {ty : TypeRef} (opens : a.Opens p ty)
    (live : ∀ ref, a.object? = some ref → ref.id < h.objects.size) :
    (∀ ref q, (Access.heapAfter h past).fieldValue? ref q =
      (Access.lastWritten h past ref q).or (h.fieldValue? ref q)) ∧
    (∀ now ref, a.object? = some ref →
      (a.get now p (Access.heapAfter h past) =
        match (Access.lastWritten h past ref p).or (h.fieldValue? ref p) with
        | some v => .ok v (Access.heapAfter h past)
        | none => .error (.undefinedField p) (Access.heapAfter h past)) ∧
      ∀ x, now.accepts ty x = true → ∃ h', a.set now p x (Access.heapAfter h past) = .ok .void h' ∧
        ∀ other q, h'.fieldValue? other q = if other.id = ref.id ∧ q = p then some x
          else (Access.heapAfter h past).fieldValue? other q) ∧
    ∀ now x, now.accepts ty x = false → a.set now p x (Access.heapAfter h past) =
      .error (.wrongArgType ("set_" ++ p) (now.typeName ty) (now.valueTypeName x))
        (Access.heapAfter h past) := by
  obtain ⟨hsize, hfields⟩ := Access.steps proper
  refine ⟨hfields, fun now ref held => ⟨?_, fun x accepted => ?_⟩, fun now x rejected => ?_⟩
  · rw [get_of_object opens held, hfields]
  · refine ⟨_, set_of_object opens held accepted _, fun other q => ?_⟩
    exact Heap.fieldValue?_setField _ ref other p q x (hsize ▸ live ref held)
  · rw [set_of_rejected opens rejected]
    rfl

/-! ### Two contracts and two crates -/

/-- A contract for the label. -/
def taggedSpec : ContractSpec where
  contract := ⟨0⟩
  name := "Tagged"
  operations := [.ofGetter "label" .str, .ofSetter "label" .str]

/-- A contract for the label and for putting text. -/
def binSpec : ContractSpec where
  contract := ⟨1⟩
  name := "Bin"
  operations := [.ofSetter "label" .str,
    { name := "put", kind := .method, params := [.str], ret := .void }, .ofGetter "label" .str]

/-- Both contracts, and the class of crates. -/
def binRegistry : Registry where
  types := #[⟨"Tagged", true, .contract { operations := taggedSpec.operations }⟩,
    ⟨"Bin", true, .contract { operations := binSpec.operations }⟩, crateClass]

/-- A crate seen through one of the contracts. -/
def crateAs (spec : ContractSpec) (id : Nat) : Adapter where
  type := .synthesize 1 (binRegistry.matchSpec {} (.named ⟨2⟩) spec)
  self? := some (.object ⟨id, ⟨2⟩⟩)

theorem opens_crateAs {spec : ContractSpec} (h : spec = taggedSpec ∨ spec = binSpec) (id : Nat) :
    (crateAs spec id).Opens "label" .str := by
  refine ⟨binRegistry, {}, .named ⟨2⟩, spec, ⟨?_, ?_, rfl, ?_⟩, rfl, ?_⟩
  · rcases h with rfl | rfl <;>
      rw [Registry.extract, Registry.ancestry_of_parents_eq_nil rfl] <;> decide +kernel
  · rcases h with rfl | rfl <;> decide +kernel
  · rintro v ⟨⟩
    exact ⟨by simp, rfl⟩
  · rcases h with rfl | rfl <;> exact ⟨by decide, by decide, by decide +kernel⟩

/-- One crate gets a new label through the one contract, and the other crate through the other. A
number is refused. -/
def labelling : List Access :=
  [⟨binRegistry, crateAs binSpec 0, "label", some (.str "glass")⟩,
    ⟨binRegistry, crateAs taggedSpec 1, "label", some (.str "wool")⟩,
    ⟨binRegistry, crateAs taggedSpec 0, "label", some (IntType.i32.wrap 7)⟩,
    ⟨binRegistry, crateAs taggedSpec 1, "label", none⟩]

/-- Two crates, of which one has a label. -/
def cratesHeap : Heap := ⟨#[[("label", .str "fragile")], []]⟩

theorem writes_through_labelling :
    ∃ h, Access.heapAfter cratesHeap labelling = h ∧
      (crateAs taggedSpec 0).get binRegistry "label" h = .ok (.str "glass") h ∧
      (crateAs taggedSpec 0).set binRegistry "label" (.bool true) h =
        .error (.wrongArgType "set_label" "str" "bool") h := by
  have proper : ∀ x ∈ labelling, x.Proper cratesHeap := by
    simp only [labelling, List.forall_mem_cons]
    refine ⟨⟨⟨_, opens_crateAs (Or.inr rfl) 0⟩, ?_⟩, ⟨⟨_, opens_crateAs (Or.inl rfl) 1⟩, ?_⟩,
      ⟨⟨_, opens_crateAs (Or.inl rfl) 0⟩, ?_⟩, ⟨⟨_, opens_crateAs (Or.inl rfl) 1⟩, ?_⟩, by simp⟩ <;>
      rintro ref ⟨⟩ <;> decide
  obtain ⟨-, hobject, hrejected⟩ := writes_through proper (opens_crateAs (Or.inl rfl) 0)
    (by rintro ref ⟨⟩; decide)
  obtain ⟨hget, -⟩ := hobject binRegistry _ rfl
  exact ⟨_, rfl, hget, hrejected binRegistry (.bool true) rfl⟩

end Adapter

end Contracts
