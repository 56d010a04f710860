import Contracts.Proofs.DeclarationHistory
import Contracts.Proofs.Interning

set_option autoImplicit false

/-! # Looking types up in an index

A registry searches its types for a name. A program can instead keep an index, in which the position
of each type is filed when the type is declared, under the name that the name table has for its text
(`Registry.NameIndex.after`). The index leads from every text to where the search leads
(`Registry.NameIndex.Agrees`): different texts have different names, and a text keeps its name. That
needs a slot for each text, so it is said of a program that gives up if there is none
(`Registry.performAll`). Main statement: `Registry.byName?_of_performAll`. -/

namespace Contracts

namespace Registry

/-- The positions that are filed, each under a name. -/
abbrev NameIndex := Name → Option TypeIdx

namespace NameIndex

/-- The index in which nothing is filed. -/
def empty : NameIndex := fun _ => none

/-- Where a text leads: to what is filed under its name, if it has one. -/
def find? (index : NameIndex) (names : NameTable) (text : String) : Option TypeIdx :=
  (names.get? text).bind index

/-- The index with a position filed under a name. -/
def file (index : NameIndex) (name : Name) (idx : TypeIdx) : NameIndex :=
  fun other => if other = name then some idx else index other

/-- The index after a call. The position of a type is filed when it is taken; whether the name is
new is decided by the index. -/
def after (index : NameIndex) (r : Registry) (call : Call) : NameIndex :=
  match call.declaration?.bind fun asked => (r.after call).names.get? asked.1 with
  | none => index
  | some name =>
      if (index name).isNone ∧ r.types.size < UInt32.size then index.file name ⟨r.types.size⟩
      else index

/-- The index after some calls, one after the other. -/
def afterAll (index : NameIndex) (r : Registry) : List Call → NameIndex
  | [] => index
  | call :: rest => (index.after r call).afterAll (r.after call) rest

/-- The index leads where a search does, and nothing is filed but under the names of texts. -/
structure Agrees (index : NameIndex) (names : NameTable) (search : String → Option TypeIdx) :
    Prop where
  indexed : names.Indexed
  find : ∀ text, index.find? names text = search text
  filed : ∀ name idx, index name = some idx → ∃ text, names.get? text = some name

variable {index : NameIndex} {r : Registry} {call : Call} {names : NameTable}
variable {search : String → Option TypeIdx} {text : String} {name : Name} {kind : TypeKind}

theorem agrees_empty (fresh : r.types = #[]) (indexed : r.names.Indexed) :
    empty.Agrees r.names r.byName? where
  indexed := indexed
  find text := by
    have hnone : r.byName? text = none := by simp [byName?, fresh]
    rw [find?, hnone]
    cases r.names.get? text <;> rfl
  filed _ _ h := nomatch h

/-- Nothing is filed under a name that is given now, and what had a name keeps it. -/
theorem Agrees.insertMany (h : index.Agrees names search) (texts : List String) :
    index.Agrees (names.insertMany texts) search := by
  have hindexed := h.indexed.insertMany texts
  have hkeeps : ∀ {text name}, names.get? text = some name →
      (names.insertMany texts).Names text name := fun hget =>
    (h.indexed.names_iff.2 hget).insertMany h.indexed texts
  refine ⟨hindexed, fun text => ?_, fun name idx hidx => ?_⟩
  · rw [← h.find, find?, find?]
    cases hget : names.get? text with
    | some name => rw [(hkeeps hget).get]
    | none =>
        refine Option.bind_eq_none_iff.2 fun name hname => ?_
        refine Option.eq_none_iff_forall_ne_some.2 fun idx hidx => ?_
        obtain ⟨text', hget'⟩ := h.filed name idx hidx
        obtain rfl := ((hindexed.names_iff.2 hname).eq_iff (hkeeps hget')).1 rfl
        exact absurd (hget.symm.trans hget') nofun
  · obtain ⟨text, hget⟩ := h.filed name idx hidx
    exact ⟨text, (hkeeps hget).get⟩

/-- What is filed under the name of a text is found for that text and no other. -/
theorem Agrees.file (h : index.Agrees names search) (named : names.get? text = some name)
    (idx : TypeIdx) : (index.file name idx).Agrees names
      fun other => if other = text then some idx else search other := by
  refine ⟨h.indexed, fun other => ?_, fun name' idx' hidx => ?_⟩
  · by_cases same : other = text
    · subst same
      rw [if_pos rfl, find?, named]
      exact if_pos rfl
    · rw [if_neg same, ← h.find, find?, find?]
      cases hother : names.get? other with
      | none => rfl
      | some name' =>
          have hnames := h.indexed.names_iff.2 hother
          exact if_neg fun hname =>
            same ((hnames.eq_iff (h.indexed.names_iff.2 named)).1 hname)
  · by_cases same : name' = name
    · exact ⟨text, same ▸ named⟩
    · exact h.filed name' idx' ((if_neg same).symm.trans hidx)

/-- A type that is declared is filed. -/
theorem after_of_new (asked : call.declaration? = some (text, kind))
    (named : (r.after call).names.get? text = some name) (free : index name = none)
    (room : r.types.size < UInt32.size) :
    index.after r call = index.file name ⟨r.types.size⟩ := by
  simp [NameIndex.after, asked, named, free, room]

/-- Nothing is filed if no type is asked for, if there is one under the name, or if there is no
position for it. -/
theorem after_of_not_new (h : ∀ text kind name, call.declaration? = some (text, kind) →
    (r.after call).names.get? text = some name →
      ¬(index name = none ∧ r.types.size < UInt32.size)) : index.after r call = index := by
  rw [NameIndex.after]
  split
  · rfl
  · rename_i name hname
    obtain ⟨⟨text, kind⟩, hasked, hget⟩ := Option.bind_eq_some_iff.1 hname
    exact if_neg fun new =>
      h text kind name hasked hget ⟨Option.isNone_iff_eq_none.1 new.1, new.2⟩

/-- A call that does not come to a name without a slot leaves the index and the search in
agreement. -/
theorem Agrees.after {later : NameTable} (h : index.Agrees r.names r.byName?)
    (room : r.names.tryInternMany (call.enters r) = .ok later) :
    (index.after r call).Agrees (r.after call).names (r.after call).byName? := by
  have heffect := r.effect call
  have hentered : index.Agrees (r.after call).names r.byName? :=
    heffect.names ▸ h.insertMany (call.enters r)
  by_cases hnew : ∃ text kind, call.declaration? = some (text, kind) ∧ r.byName? text = none ∧
      r.types.size < UInt32.size
  · obtain ⟨text, kind, hasked, hunknown, hroom⟩ := hnew
    obtain ⟨name, hname⟩ : ∃ name, (r.after call).names.get? text = some name := by
      obtain ⟨rfl, hnamed⟩ := NameTable.tryInternMany_eq_ok h.indexed room
      obtain ⟨name, hname⟩ := hnamed text (Call.mem_enters hasked hunknown)
      exact ⟨name, heffect.names ▸ hname.get⟩
    have hfree : index name = none := by
      have hfind := hentered.find text
      rwa [find?, hname, hunknown] at hfind
    have hsearch : (r.after call).byName? =
        fun other => if other = text then some ⟨r.types.size⟩ else r.byName? other := by
      funext other
      rw [heffect.byName?, hasked]
      by_cases same : other = text
      · subst same
        rw [if_pos rfl, if_pos ⟨rfl, hunknown, hroom⟩]
      · rw [if_neg same, if_neg fun new => same (Option.some.inj new.1).symm]
    rw [after_of_new hasked hname hfree hroom, hsearch]
    exact hentered.file hname _
  · have hsearch : (r.after call).byName? = r.byName? := by
      funext other
      refine (heffect.byName? other).trans (if_neg fun new => hnew ?_)
      obtain ⟨⟨text, kind⟩, hasked, rfl⟩ := Option.map_eq_some_iff.1 new.1
      exact ⟨text, kind, hasked, new.2⟩
    rw [after_of_not_new, hsearch]
    · exact hentered
    · rintro text kind name hasked hname ⟨hfree, hroom⟩
      have hfind := hentered.find text
      rw [find?, hname, Option.bind_some, hfree] at hfind
      exact hnew ⟨text, kind, hasked, hfind.symm, hroom⟩

end NameIndex

variable {r r' : Registry} {call : Call} {calls : List Call}

/-- A program that does not give up comes to a name without slot neither at the first call nor
later. -/
theorem of_performAll_cons (h : r.performAll (call :: calls) = .ok r') :
    (∃ later, r.names.tryInternMany (call.enters r) = .ok later) ∧
      (r.after call).performAll calls = .ok r' := by
  cases room : r.names.tryInternMany (call.enters r) with
  | error e =>
      rw [performAll, perform, room] at h
      cases h
  | ok later =>
      refine ⟨⟨later, rfl⟩, ?_⟩
      rw [after, endState]
      cases hrun : call.run r with
      | ok a r₁ | error e r₁ =>
          simpa only [performAll, perform, room, hrun, bind, Except.bind, pure, Except.pure] using h

theorem NameIndex.Agrees.performAll {index : NameIndex} (h : index.Agrees r.names r.byName?)
    (performs : r.performAll calls = .ok r') :
    r' = r.run calls ∧ (index.afterAll r calls).Agrees r'.names r'.byName? := by
  induction calls generalizing r index with
  | nil =>
      obtain rfl := Except.ok.inj performs
      exact ⟨rfl, h⟩
  | cons call rest ih =>
      obtain ⟨⟨later, room⟩, hrest⟩ := of_performAll_cons performs
      exact ih (h.after room) hrest

/-- **An index would find the same.** A registry starts without types, calls are made one after the
other, and none comes to a name without a slot. Then the registry is the one after these calls, and
from every text, an index in which each type was filed as it was declared leads to where the search
leads. -/
theorem byName?_of_performAll (fresh : r.types = #[]) (indexed : r.names.Indexed)
    (performs : r.performAll calls = .ok r') : r' = r.run calls ∧
      ∀ text, r'.byName? text = (NameIndex.empty.afterAll r calls).find? r'.names text := by
  obtain ⟨hrun, hagrees⟩ := (NameIndex.agrees_empty fresh indexed).performAll performs
  exact ⟨hrun, fun text => (hagrees.find text).symm⟩

example : (empty.performAll [.defineType false "Box" fun _ => {},
    .contractOrDeclare "Sized" fun _ => {}]).toOption.isSome = true := by decide +kernel

end Registry

end Contracts
