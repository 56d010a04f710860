import Contracts.Proofs.NameKeeping
import Mathlib.Algebra.Order.BigOperators.Group.List
import Mathlib.Algebra.Order.Ring.Nat
import Mathlib.Data.Finset.Card

set_option autoImplicit false

/-! # Laws of interning

A name table is told to intern texts, asked for the names of texts, and asked for the texts of
names, in any order. In each shard the slots and the way back from a text to its slot agree, the
texts belong there by their hash, and there are never more of them than slots
(`NameTable.Indexed`). So a text has one place in the table, the packed word of its name says which,
and since shards only grow at the end it says so ever after (`NameTable.Names`). Main statement:
`NameTable.interns_run`. -/

-- Powers are those of the core library, whatever else is imported.
attribute [local instance (high)] instPowNat

namespace Contracts

/-! ## Packed words -/

namespace Name

theorem slot_le (name : Name) : name.slot ≤ maxSlot :=
  Nat.le_pred_of_lt (Nat.mod_lt _ (by decide))

@[simp] theorem pack_shard_slot (name : Name) : pack name.shard name.slot = name := by
  have hraw : (pack name.shard name.slot).raw = name.raw := by
    refine BitVec.eq_of_toNat_eq ?_
    rw [toNat_pack name.slot_le]
    exact Nat.div_add_mod' _ _
  exact congrArg Name.mk hraw

/-- The shard is in the high bits and the slot in the low ones. -/
theorem raw_eq_or (name : Name) : name.raw =
    BitVec.ofNat 32 name.shard.val <<< slotBits ||| BitVec.ofNat 32 name.slot := by
  have hshard : name.shard.val < 2 ^ 4 := name.shard.isLt
  have hslot : name.slot < 2 ^ slotBits := Nat.mod_lt _ (by decide)
  have hhigh : name.shard.val <<< slotBits < 2 ^ 32 := by
    rw [Nat.shiftLeft_eq, slotBits]
    omega
  refine BitVec.eq_of_toNat_eq ?_
  calc name.raw.toNat
      = name.shard.val * 2 ^ slotBits + name.slot := (Nat.div_add_mod' _ _).symm
    _ = name.shard.val <<< slotBits ||| name.slot := by
        rw [← Nat.shiftLeft_add_eq_or_of_lt hslot, Nat.shiftLeft_eq]
    _ = _ := by
        rw [BitVec.toNat_or, BitVec.toNat_shiftLeft, BitVec.toNat_ofNat, BitVec.toNat_ofNat,
          Nat.mod_eq_of_lt (hshard.trans (by decide)), Nat.mod_eq_of_lt hhigh,
          Nat.mod_eq_of_lt (hslot.trans (by decide))]

end Name

/-! ## Shards -/

namespace Shard

variable {shard : Shard} {text other : String}

/-- A text is found at a slot if and only if that is its slot. -/
def Linked (shard : Shard) : Prop :=
  ∀ text slot, shard.slotOf text = some slot ↔ shard.slots[slot]? = some text

theorem linked_empty : ({} : Shard).Linked := by simp [Linked]

/-- The next slot is that of a new text. -/
theorem Linked.push (h : shard.Linked) (new : shard.slotOf text = none) :
    (shard.push text).Linked := by
  intro other slot
  simp only [Shard.push, Array.getElem?_push]
  by_cases same : other = text <;> by_cases last : slot = shard.slots.size
  · simp [same, last]
  · have hnot : shard.slots[slot]? ≠ some text := fun hslot => by
      simpa [new] using (h text slot).2 hslot
    simp [same, last, Ne.symm last, hnot]
  · have hnot : shard.slotOf other ≠ some shard.slots.size := fun hfound => by
      simpa using (h other _).1 hfound
    simp [same, last, hnot, Ne.symm same]
  · simp [same, last, h other slot]

theorem Linked.isSome_slotOf_iff (h : shard.Linked) :
    (shard.slotOf text).isSome = true ↔ text ∈ shard.slots := by
  simp only [Option.isSome_iff_exists, h text, Array.mem_iff_getElem?]

/-- No text has two slots. -/
theorem Linked.nodup (h : shard.Linked) : shard.slots.toList.Nodup := by
  refine List.pairwise_iff_getElem.2 fun i j hi hj hlt same => hlt.ne ?_
  have hfirst := (h shard.slots[i] i).2 (Array.getElem?_eq_getElem hi)
  have hsecond := (h shard.slots[j] j).2 (Array.getElem?_eq_getElem hj)
  have htext : shard.slots[i] = shard.slots[j] := same
  rw [htext] at hfirst
  exact Option.some.inj (hfirst.symm.trans hsecond)

end Shard

namespace NameTable

/-! ## Hashing -/

/-- The hash of a text in 32 bits, of which the low four choose the shard. -/
def hash (text : String) : BitVec 32 :=
  (text.toUTF8.toList.take 8).foldl (fun h byte => h * 31 + BitVec.ofNat 32 byte.toNat) 0

/-- Bits that are carried out of the word do not matter for the shard. -/
theorem shardOf_eq (text : String) : (shardOf text).val = (hash text).toNat % 16 := by
  have hfold : ∀ (bytes : List UInt8) (h : BitVec 32) (n : Nat), n % 16 = h.toNat % 16 →
      bytes.foldl (fun h byte => 31 * h + byte.toNat) n % 16 =
        (bytes.foldl (fun h byte => h * 31 + BitVec.ofNat 32 byte.toNat) h).toNat % 16 := by
    intro bytes
    induction bytes with
    | nil => exact fun _ _ h => h
    | cons byte rest ih =>
        intro h n same
        refine ih _ _ ?_
        have hfactor : (31 : BitVec 32).toNat = 31 := rfl
        simp only [BitVec.toNat_add, BitVec.toNat_mul, BitVec.toNat_ofNat, hfactor]
        omega
  exact hfold _ 0 0 rfl

/-! ## What a table keeps in order -/

variable {table : NameTable} {s t : String} {n m : Name}

/-- The texts of a shard are found at their slots, have the hash of the shard, and are not more than
there are slots. -/
structure Indexed (table : NameTable) : Prop where
  linked : ∀ i : Fin 16, table.shards[i].Linked
  home : ∀ (i : Fin 16), ∀ text ∈ table.shards[i].slots, shardOf text = i
  bounded : ∀ i : Fin 16, table.shards[i].slots.size ≤ Name.maxSlot + 1

/-- The name is that of the text: each is found from the other, and the name is a word that has the
shard of the text, which is chosen by its hash, in the high bits, and the slot of the text there in
the low ones; the slot holds the text, and the text is found at the slot. -/
structure Names (table : NameTable) (text : String) (name : Name) : Prop where
  lookup : table.lookup name = text
  get : table.get? text = some name
  shard : name.shard = shardOf text
  slot : (table.shard text).slots[name.slot]? = some text
  found : (table.shard text).slotOf text = some name.slot
  word : name.raw = BitVec.ofNat 32 ((hash text).toNat % 16) <<< Name.slotBits |||
    BitVec.ofNat 32 name.slot

/-- Interning a text changes nothing, or puts the text at the end of its shard, where there is a
slot left. -/
theorem insert_cases (table : NameTable) (text : String) : table.insert text = table ∨
    (table.shard text).slotOf text = none ∧ (table.shard text).slots.size ≤ Name.maxSlot ∧
      ∀ i : Fin 16, (table.insert text).shards[i] =
        if i = shardOf text then table.shards[i].push text else table.shards[i] := by
  rw [insert_eq]
  split
  · exact Or.inl rfl
  · rename_i hnew
    obtain ⟨hnew, hroom⟩ := not_or.1 hnew
    refine Or.inr ⟨Option.not_isSome_iff_eq_none.1 hnew, Nat.le_of_not_lt hroom, fun i => ?_⟩
    show (table.shards.set (shardOf text).val _ (shardOf text).isLt)[i.val] = _
    rw [Vector.getElem_set]
    by_cases hi : i = shardOf text
    · subst hi
      rw [if_pos rfl, if_pos rfl]
      rfl
    · rw [if_neg fun h => hi (Fin.ext h.symm), if_neg hi]
      rfl

theorem Indexed.insert (h : table.Indexed) (text : String) : (table.insert text).Indexed := by
  rcases table.insert_cases text with hsame | ⟨hnew, hroom, hshards⟩
  · rwa [hsame]
  · refine ⟨fun i => ?_, fun i other hmem => ?_, fun i => ?_⟩
    · rw [hshards i]
      split
      · rename_i hi
        subst hi
        exact (h.linked _).push hnew
      · exact h.linked i
    · rw [hshards i] at hmem
      split at hmem
      · rename_i hi
        rcases Array.mem_push.1 hmem with hmem | rfl
        · exact h.home i other hmem
        · exact hi.symm
      · exact h.home i other hmem
    · rw [hshards i]
      split
      · rename_i hi
        subst hi
        rw [Shard.push, Array.size_push]
        exact Nat.succ_le_succ hroom
      · exact h.bounded i

theorem Indexed.insertMany (h : table.Indexed) (texts : List String) :
    (table.insertMany texts).Indexed := by
  induction texts generalizing table with
  | nil => exact h
  | cons text rest ih => exact ih (h.insert text)

theorem indexed_new : new.Indexed := by
  refine Indexed.insertMany ⟨fun i => ?_, by decide +kernel, by decide⟩ _
  show (((Vector.replicate 16 ({} : Shard)).set 0 (({} : Shard).push ""))[i.val]).Linked
  rw [Vector.getElem_set]
  split
  · exact Shard.linked_empty.push rfl
  · rw [Vector.getElem_replicate]
    exact Shard.linked_empty

/-! ## Names -/

theorem Indexed.linked_shard (h : table.Indexed) (s : String) : (table.shard s).Linked :=
  h.linked (shardOf s)

/-- A text has a name if it is in its shard. -/
theorem isSome_get?_iff (h : table.Indexed) :
    (table.get? s).isSome = true ↔ s ∈ (table.shard s).slots := by
  rw [get?_eq, Option.isSome_map, (h.linked_shard s).isSome_slotOf_iff]

/-- The name of a text is the place that the text has in the shard of its hash. -/
theorem get?_eq_some_iff (h : table.Indexed) : table.get? s = some n ↔
    n.shard = shardOf s ∧ (table.shard s).slots[n.slot]? = some s := by
  rw [get?_eq, Option.map_eq_some_iff]
  constructor
  · rintro ⟨slot, hfound, rfl⟩
    have hslot := (h.linked_shard s s slot).1 hfound
    have hlt := (Array.getElem?_eq_some_iff.1 hslot).1
    have hle : slot ≤ Name.maxSlot := Nat.le_of_lt_succ (hlt.trans_le (h.bounded (shardOf s)))
    rw [Name.shard_pack hle, Name.slot_pack hle]
    exact ⟨rfl, hslot⟩
  · rintro ⟨hshard, hslot⟩
    refine ⟨n.slot, (h.linked_shard s s n.slot).2 hslot, ?_⟩
    rw [← hshard, Name.pack_shard_slot]

theorem Indexed.names_iff (h : table.Indexed) : table.Names s n ↔ table.get? s = some n := by
  refine ⟨Names.get, fun hget => ?_⟩
  obtain ⟨hshard, hslot⟩ := (get?_eq_some_iff h).1 hget
  refine ⟨?_, hget, hshard, hslot, (h.linked_shard s s n.slot).2 hslot, ?_⟩
  · simp only [NameTable.lookup, hshard]
    exact congrArg (Option.getD · "") hslot
  · rw [← shardOf_eq, ← hshard]
    exact n.raw_eq_or

/-- Names are the same only if the texts are. -/
theorem Names.eq_iff (hs : table.Names s n) (ht : table.Names t m) : n = m ↔ s = t := by
  constructor
  · rintro rfl
    rw [← hs.lookup, ht.lookup]
  · rintro rfl
    exact Option.some.inj (hs.get.symm.trans ht.get)

/-- A name stays the name of its text. -/
theorem Names.insert (h : table.Indexed) (hs : table.Names s n) (text : String) :
    (table.insert text).Names s n := by
  refine (h.insert text).names_iff.2 ((get?_eq_some_iff (h.insert text)).2 ⟨hs.shard, ?_⟩)
  have hslot := hs.slot
  have hlt := (Array.getElem?_eq_some_iff.1 hslot).1
  rcases table.shard_insert text s with hshard | hshard
  · exact (congrArg (·.slots[n.slot]?) hshard).trans hslot
  · refine (congrArg (·.slots[n.slot]?) hshard).trans ?_
    exact (Array.getElem?_push_lt hlt).trans ((Array.getElem?_eq_getElem hlt).symm.trans hslot)

/-- What interning comes to: the text has a name afterwards, or its shard is full and the text is
not in it. -/
theorem tryIntern_cases (h : table.Indexed) (s : String) :
    (∃ n, table.tryIntern s = .ok (n, table.insert s) ∧ (table.insert s).Names s n) ∨
      table.get? s = none ∧ table.insert s = table ∧
        (table.shard s).slots.size = Name.maxSlot + 1 ∧
        table.tryIntern s = .error ⟨(shardOf s).val, (table.shard s).slots.size⟩ := by
  have hshard : table.shards[shardOf s] = table.shard s := rfl
  cases hget : table.get? s with
  | some n =>
      have htry : table.tryIntern s = .ok (n, table) := by rw [tryIntern, hget]
      have hinsert : table.insert s = table := by rw [NameTable.insert, htry]
      rw [hinsert]
      exact Or.inl ⟨n, htry, h.names_iff.2 hget⟩
  | none =>
      by_cases hroom : (table.shard s).slots.size ≤ Name.maxSlot
      · have htry : table.tryIntern s = .ok (.pack (shardOf s) (table.shard s).slots.size,
            ⟨table.shards.set (shardOf s) ((table.shard s).push s) (shardOf s).isLt⟩) := by
          simp only [tryIntern, hget, hshard, if_pos hroom]
        have hinsert : table.insert s =
            ⟨table.shards.set (shardOf s) ((table.shard s).push s) (shardOf s).isLt⟩ := by
          rw [NameTable.insert, htry]
        refine Or.inl ⟨_, hinsert ▸ htry, (h.insert s).names_iff.2 ?_⟩
        refine (get?_eq_some_iff (h.insert s)).2 ⟨Name.shard_pack hroom, ?_⟩
        rw [Name.slot_pack hroom, hinsert]
        simp [shard_eq, Shard.push]
      · have hfull : Name.maxSlot < (table.shard s).slots.size := Nat.lt_of_not_le hroom
        have htry : table.tryIntern s = .error ⟨(shardOf s).val, (table.shard s).slots.size⟩ := by
          simp only [tryIntern, hget, hshard, if_neg hroom]
        refine Or.inr ⟨rfl, by rw [NameTable.insert, htry], ?_, htry⟩
        exact Nat.le_antisymm (h.bounded (shardOf s)) hfull

/-! ## Several texts -/

theorem Names.insertMany (h : table.Indexed) (hs : table.Names s n) (texts : List String) :
    (table.insertMany texts).Names s n := by
  induction texts generalizing table with
  | nil => exact hs
  | cons text rest ih => exact ih (h.insert text) (hs.insert h text)

/-- If there is a slot for each of several texts, then each has a name afterwards. -/
theorem tryInternMany_eq_ok {later : NameTable} {texts : List String} (h : table.Indexed)
    (hok : table.tryInternMany texts = .ok later) :
    later = table.insertMany texts ∧ ∀ text ∈ texts, ∃ n, later.Names text n := by
  induction texts generalizing table with
  | nil => exact ⟨(Except.ok.inj hok).symm, by simp⟩
  | cons text rest ih =>
      rcases table.tryIntern_cases h text with ⟨n, htry, hnames⟩ | ⟨-, -, -, htry⟩
      · rw [tryInternMany, htry] at hok
        obtain ⟨rfl, hrest⟩ := ih (h.insert text) hok
        exact ⟨rfl, List.forall_mem_cons.2 ⟨⟨n, hnames.insertMany (h.insert text) rest⟩, hrest⟩⟩
      · rw [tryInternMany, htry] at hok
        exact nomatch hok

/-! ## Calls -/

/-- What may be asked of a table. -/
inductive Call
  /-- Intern a text, and give up altogether if there is no slot left. -/
  | intern (text : String)
  /-- Intern a text, if there is a slot left. -/
  | tryIntern (text : String)
  /-- Look for the name of a text. -/
  | get (text : String)
  /-- Look for the text of a name. -/
  | lookup (name : Name)

/-- What a call comes to. -/
inductive Answer
  | name (name : Name)
  | unknown
  | text (text : String)
  | full (e : ShardOverflow)
  | aborted (message : String)
deriving DecidableEq

/-- The text that a call is to intern. -/
def Call.text? : Call → Option String
  | .intern text | .tryIntern text => some text
  | .get _ | .lookup _ => none

/-- What a call comes to. -/
def answer (table : NameTable) : Call → Answer
  | .intern text =>
      match table.tryIntern text with
      | .ok (name, _) => .name name
      | .error e => .aborted e.message
  | .tryIntern text =>
      match table.tryIntern text with
      | .ok (name, _) => .name name
      | .error e => .full e
  | .get text =>
      match table.get? text with
      | some name => .name name
      | none => .unknown
  | .lookup name => .text (table.lookup name)

/-- The table after a call. -/
def after (table : NameTable) : Call → NameTable
  | .intern text | .tryIntern text => table.insert text
  | .get _ | .lookup _ => table

/-- The table after some calls, one after the other. -/
def run (table : NameTable) (calls : List Call) : NameTable := calls.foldl after table

/-- The text that a call interns, if it is to intern one and there is a slot for it. -/
def enters? (table : NameTable) (call : Call) : Option String :=
  call.text?.filter fun text => (table.tryIntern text).isOk

/-- The texts that some calls intern, each as often as they do. -/
def interned (table : NameTable) : List Call → List String
  | [] => []
  | call :: rest => (table.enters? call).toList ++ (table.after call).interned rest

variable {call : Call}

theorem after_of_text? (h : call.text? = some s) : table.after call = table.insert s := by
  cases call with
  | intern | tryIntern => rw [← Option.some.inj h, after]
  | get | lookup => exact absurd h nofun

theorem after_of_text?_eq_none (h : call.text? = none) : table.after call = table := by
  cases call with
  | intern | tryIntern => exact absurd h nofun
  | get | lookup => rfl

theorem answer_of_ok {after : NameTable} (h : call.text? = some s)
    (hok : table.tryIntern s = .ok (n, after)) : table.answer call = .name n := by
  cases call with
  | intern | tryIntern =>
      obtain rfl := Option.some.inj h
      simp only [answer, hok]
  | get | lookup => exact absurd h nofun

theorem answer_of_error {e : ShardOverflow} (h : call.text? = some s)
    (herror : table.tryIntern s = .error e) :
    table.answer call = .full e ∨ table.answer call = .aborted e.message := by
  cases call with
  | intern =>
      obtain rfl := Option.some.inj h
      exact Or.inr (by simp only [answer, herror])
  | tryIntern =>
      obtain rfl := Option.some.inj h
      exact Or.inl (by simp only [answer, herror])
  | get | lookup => exact absurd h nofun

/-! ## What a call keeps, and what a run keeps -/

theorem Indexed.after (h : table.Indexed) (call : Call) : (table.after call).Indexed := by
  cases htext : call.text? with
  | none => rwa [after_of_text?_eq_none htext]
  | some s => exact after_of_text? htext ▸ h.insert s

theorem Names.after (h : table.Indexed) (hs : table.Names s n) (call : Call) :
    (table.after call).Names s n := by
  cases htext : call.text? with
  | none => rwa [after_of_text?_eq_none htext]
  | some t => exact after_of_text? htext ▸ hs.insert h t

/-- The texts that have a name after one is interned are that and those that had one before. -/
theorem isSome_get?_insert (h : table.Indexed) (hs : (table.insert s).Names s n) :
    ((table.insert s).get? t).isSome = true ↔ (table.get? t).isSome = true ∨ s = t := by
  constructor
  · intro hafter
    rw [isSome_get?_iff (h.insert s)] at hafter
    rw [isSome_get?_iff h]
    rcases table.shard_insert s t with hshard | hshard <;> rw [hshard] at hafter
    · exact Or.inl hafter
    · exact (Array.mem_push.1 hafter).imp_right Eq.symm
  · rintro (hbefore | rfl)
    · obtain ⟨m, hm⟩ := Option.isSome_iff_exists.1 hbefore
      rw [((h.names_iff.2 hm).insert h s).get]
      rfl
    · rw [hs.get]
      rfl

/-- A text has a name after a call if it had one before or the call interns it. -/
theorem isSome_get?_after (h : table.Indexed) (call : Call) (t : String) :
    ((table.after call).get? t).isSome = true ↔
      (table.get? t).isSome = true ∨ table.enters? call = some t := by
  cases htext : call.text? with
  | none => simp [after_of_text?_eq_none htext, enters?, htext]
  | some s =>
      rw [after_of_text? htext]
      rcases table.tryIntern_cases h s with ⟨n, hok, hnames⟩ | ⟨-, hsame, -, herror⟩
      · have henters : table.enters? call = some s := by
          simp [enters?, htext, hok, Except.isOk, Except.toBool]
        rw [henters, Option.some_inj, isSome_get?_insert h hnames]
      · have henters : table.enters? call = none := by
          simp [enters?, htext, herror, Except.isOk, Except.toBool]
        simp [hsame, henters]

@[simp] theorem run_nil (table : NameTable) : table.run [] = table :=
  rfl

theorem run_append (table : NameTable) (past future : List Call) :
    table.run (past ++ future) = (table.run past).run future :=
  List.foldl_append

theorem Indexed.run (h : table.Indexed) (calls : List Call) : (table.run calls).Indexed := by
  induction calls generalizing table with
  | nil => exact h
  | cons call rest ih => exact ih (h.after call)

theorem Names.run (h : table.Indexed) (hs : table.Names s n) (calls : List Call) :
    (table.run calls).Names s n := by
  induction calls generalizing table with
  | nil => exact hs
  | cons call rest ih => exact ih (h.after call) (hs.after h call)

/-- A text has a name after some calls if it had one before or is one of those that they intern. -/
theorem isSome_get?_run (h : table.Indexed) (calls : List Call) (t : String) :
    ((table.run calls).get? t).isSome = true ↔
      (table.get? t).isSome = true ∨ t ∈ table.interned calls := by
  induction calls generalizing table with
  | nil => simp [run, interned]
  | cons call rest ih =>
      have hrun : table.run (call :: rest) = (table.after call).run rest := rfl
      rw [hrun, ih (h.after call), isSome_get?_after h, interned, List.mem_append,
        Option.mem_toList, or_assoc]

/-! ## Counting -/

/-- The texts of all shards. -/
def texts (table : NameTable) : List String := table.shards.toList.flatMap (·.slots.toList)

theorem length_texts (table : NameTable) : table.texts.length = table.size := by
  rw [texts, List.length_flatMap, List.sum_eq_foldl, List.foldl_map, Vector.foldl_toList]
  rfl

theorem mem_texts_iff (h : table.Indexed) :
    s ∈ table.texts ↔ (table.get? s).isSome = true := by
  rw [isSome_get?_iff h, texts, List.mem_flatMap]
  constructor
  · rintro ⟨shard, hshard, hmem⟩
    obtain ⟨i, hi, rfl⟩ := Vector.mem_iff_getElem.1 (Vector.mem_toList_iff.1 hshard)
    have hmem := Array.mem_toList_iff.1 hmem
    have hhome : shardOf s = ⟨i, hi⟩ := h.home ⟨i, hi⟩ s hmem
    rwa [shard, hhome]
  · intro hmem
    exact ⟨table.shard s, Vector.mem_toList_iff.2 (Vector.getElem_mem _),
      Array.mem_toList_iff.2 hmem⟩

theorem nodup_texts (h : table.Indexed) : table.texts.Nodup := by
  refine List.nodup_flatMap.2 ⟨fun shard hshard => ?_, ?_⟩
  · obtain ⟨i, hi, rfl⟩ := Vector.mem_iff_getElem.1 (Vector.mem_toList_iff.1 hshard)
    exact (h.linked ⟨i, hi⟩).nodup
  · refine List.pairwise_iff_getElem.2 fun i j hi hj hlt s hsi hsj => ?_
    rw [Vector.length_toList] at hi hj
    have hhome := h.home ⟨i, hi⟩ s (Array.mem_toList_iff.1 (by simpa using hsi))
    have hhome' := h.home ⟨j, hj⟩ s (Array.mem_toList_iff.1 (by simpa using hsj))
    exact hlt.ne (congrArg Fin.val (hhome.symm.trans hhome'))

/-- There are as many texts in a table as there are texts that have a name. -/
theorem size_eq_card (h : table.Indexed) {known : List String}
    (hknown : ∀ s, (table.get? s).isSome = true ↔ s ∈ known) :
    table.size = known.toFinset.card := by
  have hsame : table.texts.toFinset = known.toFinset := by
    ext s
    rw [List.mem_toFinset, List.mem_toFinset, mem_texts_iff h, hknown]
  rw [← hsame, List.toFinset_card_of_nodup (nodup_texts h), length_texts]

/-- The texts that every table holds from the start. -/
def preset : List String := ["", "to_string", "parse", "self", "value"]

theorem isSome_get?_new : (new.get? s).isSome = true ↔ s ∈ preset := by
  have hperm : new.texts.Perm preset := by decide +kernel
  rw [← mem_texts_iff indexed_new, hperm.mem_iff]

/-- A name that interning gives is the name of the text afterwards. -/
theorem names_of_answer (h : table.Indexed) (htext : call.text? = some s)
    (hname : table.answer call = .name n) : (table.after call).Names s n := by
  rw [after_of_text? htext]
  rcases table.tryIntern_cases h s with ⟨m, hok, hnames⟩ | ⟨-, -, -, herror⟩
  · rw [answer_of_ok htext hok] at hname
    obtain rfl := Answer.name.inj hname
    exact hnames
  · rcases answer_of_error htext herror with h | h <;> cases hname.symm.trans h

/-- A text that has a name is given that name when it is interned. -/
theorem Names.answer (h : table.Indexed) (hs : table.Names s n) (htext : call.text? = some s) :
    table.answer call = .name n := by
  rcases table.tryIntern_cases h s with ⟨m, hok, hnames⟩ | ⟨hnone, -⟩
  · rw [answer_of_ok htext hok, ((hs.insert h s).eq_iff hnames).2 rfl]
  · exact absurd (hs.get.symm.trans hnone) nofun

theorem answer_get_eq_name_iff : table.answer (.get s) = .name n ↔ table.get? s = some n := by
  cases hget : table.get? s <;> simp [NameTable.answer, hget]

/-! ## Full shards -/

theorem size_le (h : table.Indexed) : table.size ≤ 16 * 2 ^ Name.slotBits := by
  rw [← length_texts, texts, List.length_flatMap]
  have hbound : ∀ n ∈ table.shards.toList.map fun shard => shard.slots.toList.length,
      n ≤ 2 ^ Name.slotBits := by
    intro n hn
    obtain ⟨shard, hshard, rfl⟩ := List.mem_map.1 hn
    obtain ⟨i, hi, rfl⟩ := Vector.mem_iff_getElem.1 (Vector.mem_toList_iff.1 hshard)
    exact h.bounded ⟨i, hi⟩
  simpa using List.sum_le_card_nsmul _ _ hbound

/-- As long as there is a slot for every text, all are interned. -/
theorem interned_of_room (room : ∀ past s, ∃ n after, (new.run past).tryIntern s = .ok (n, after))
    (texts : List String) (past : List Call) :
    (new.run past).interned (texts.map .tryIntern) = texts := by
  induction texts generalizing past with
  | nil => rfl
  | cons s rest ih =>
      obtain ⟨n, after, hok⟩ := room past s
      have henters : (new.run past).enters? (.tryIntern s) = some s := by
        simp [enters?, Call.text?, hok, Except.isOk, Except.toBool]
      have hrun : (new.run past).after (.tryIntern s) = new.run (past ++ [.tryIntern s]) := by
        rw [run_append]
        rfl
      rw [List.map_cons, interned, henters, hrun, ih]
      rfl

/-- Some text is refused in the end: there are more texts than slots. -/
theorem exists_full : ∃ past s e, (new.run past).answer (.tryIntern s) = .full e := by
  by_contra hnone
  have room : ∀ past s, ∃ n after, (new.run past).tryIntern s = .ok (n, after) := fun past s => by
    rcases (new.run past).tryIntern_cases (indexed_new.run past) s with
      ⟨n, hok, -⟩ | ⟨-, -, -, herror⟩
    · exact ⟨n, _, hok⟩
    · exact absurd ⟨past, s, _, by simp only [answer, herror]; rfl⟩ hnone
  obtain ⟨bound, hbound⟩ : ∃ bound, ∀ past, (new.run past).size ≤ bound :=
    ⟨_, fun past => size_le (indexed_new.run past)⟩
  -- The texts "", "a", "aa", ... are distinct, and there are more of them than slots.
  let texts := (List.range (bound + 1)).map fun count => String.ofList (List.replicate count 'a')
  have hnodup : texts.Nodup := List.nodup_range.map fun m n h => by
    simpa using congrArg String.length h
  have hinterned : new.interned (texts.map .tryIntern) = texts := by
    simpa only [run_nil] using interned_of_room room texts []
  have hsize := size_eq_card (indexed_new.run (texts.map .tryIntern)) (fun s => by
    rw [isSome_get?_run indexed_new, isSome_get?_new, ← List.mem_append])
  have hmore : bound + 1 ≤ (new.run (texts.map .tryIntern)).size := calc
    bound + 1 = texts.toFinset.card := by
      rw [List.toFinset_card_of_nodup hnodup, List.length_map, List.length_range]
    _ ≤ (preset ++ texts).toFinset.card := by
      rw [List.toFinset_append]
      exact Finset.card_le_card Finset.subset_union_right
    _ = _ := by rw [hsize, hinterned]
  exact Nat.not_succ_le_self _ (hmore.trans (hbound _))

/-- **Laws of interning.** Whatever has been asked of a table before: a name that interning a text
gives is the name of that text then and after any further calls, and interning any text then gives
the same name if and only if the text is the same. The texts that have a name are those that are
there from the start and those that have been interned, the table counts each of them once, and
interning such a text gives the name that it has. Asking for names and texts changes nothing. Nor
does it change anything to intern a text for which there is no slot; the text is new then, and its
shard has as many texts as there are slots. -/
theorem interns_run (past : List Call) :
    let table := new.run past
    (∀ call s n, call.text? = some s → table.answer call = .name n →
        ∀ future, let later := (table.after call).run future
          later.Names s n ∧ ∀ again t m, again.text? = some t →
            later.answer again = .name m → (n = m ↔ s = t)) ∧
      (∀ s, (∃ n, table.answer (.get s) = .name n) ↔ s ∈ preset ++ new.interned past) ∧
      (∀ s n, table.answer (.get s) = .name n → table.Names s n ∧
        ∀ call, call.text? = some s → table.answer call = .name n) ∧
      table.size = (preset ++ new.interned past).toFinset.card ∧
      (∀ call, call.text? = none → table.after call = table) ∧
      ∀ call s, call.text? = some s → (∀ n, table.answer call ≠ .name n) →
        table.after call = table ∧ table.answer (.get s) = .unknown ∧
          (table.shard s).slots.size = 2 ^ Name.slotBits := by
  intro table
  have h : table.Indexed := indexed_new.run past
  have hknown : ∀ s, (table.get? s).isSome = true ↔ s ∈ preset ++ new.interned past := fun s => by
    rw [isSome_get?_run indexed_new, isSome_get?_new, List.mem_append]
  refine ⟨fun call s n htext hname future => ?_, fun s => ?_, fun s n hget => ?_,
    size_eq_card h hknown, fun call => after_of_text?_eq_none, fun call s htext hfails => ?_⟩
  · have hnames := (names_of_answer h htext hname).run (h.after call) future
    refine ⟨hnames, fun again t m hagain hanswer => ?_⟩
    have hlater := (h.after call).run future
    exact (hnames.after hlater again).eq_iff (names_of_answer hlater hagain hanswer)
  · simp only [answer_get_eq_name_iff, ← hknown, Option.isSome_iff_exists]
  · have hnames := h.names_iff.2 (answer_get_eq_name_iff.1 hget)
    exact ⟨hnames, fun call => hnames.answer h⟩
  · rcases table.tryIntern_cases h s with ⟨m, hok, -⟩ | ⟨hnone, hsame, hfull, -⟩
    · exact absurd (answer_of_ok htext hok) (hfails m)
    · refine ⟨(after_of_text? htext).trans hsame, ?_, hfull⟩
      simp only [answer, hnone]

/-- "Line" is new to a table that has interned "Point" and has been asked for "Line". It gets slot 0
of shard 4 and keeps it. There are also texts for which there is no slot. -/
theorem interns_run_line :
    let table := new.run [.tryIntern "Point", .get "Line"]
    let line : Name := ⟨0x40000000⟩
    table.size = 6 ∧ table.answer (.get "Line") = .unknown ∧
      table.answer (.intern "Line") = .name line ∧
      ((table.after (.intern "Line")).run [.tryIntern "Point"]).lookup line = "Line" ∧
      ∃ past s e, (new.run past).answer (.tryIntern s) = .full e ∧
        (new.run past).after (.tryIntern s) = new.run past := by
  intro table line
  have hanswer : table.answer (.intern "Line") = .name line := by decide +kernel
  obtain ⟨hname, -, -, hsize, -⟩ := interns_run [.tryIntern "Point", .get "Line"]
  obtain ⟨past, s, e, hfull⟩ := exists_full
  obtain ⟨-, -, -, -, -, hfails⟩ := interns_run past
  refine ⟨hsize.trans (by decide +kernel), by decide +kernel, hanswer,
    (hname _ "Line" line rfl hanswer [.tryIntern "Point"]).1.lookup, past, s, e, hfull,
    (hfails _ s rfl fun n hn => ?_).1⟩
  exact absurd (hn.symm.trans hfull) nofun

end NameTable

end Contracts
