set_option autoImplicit false

/-! # Interned names

A `NameTable` gives every text it is shown a `Name`, the same one each time. The names are spread
over sixteen shards by the first bytes of the text; a name packs its shard and its slot there into
one 32-bit word. -/

-- Powers are those of the core library, whatever else is imported.
attribute [local instance (high)] instPowNat

namespace Contracts

/-- A handle to an interned text; it means something only in the table that gave it out. -/
structure Name where
  raw : BitVec 32
deriving DecidableEq

namespace Name

/-- The number of bits of a slot. -/
def slotBits : Nat := 28

/-- The greatest slot of a shard. -/
def maxSlot : Nat := 2 ^ slotBits - 1

/-- The name of a slot of a shard. -/
def pack (shard : Fin 16) (slot : Nat) : Name :=
  ⟨BitVec.ofNat 32 (shard.val * 2 ^ slotBits + slot)⟩

/-- The shard of a name, its four high bits. -/
def shard (name : Name) : Fin 16 :=
  ⟨name.raw.toNat / 2 ^ slotBits, Nat.div_lt_of_lt_mul name.raw.isLt⟩

/-- The slot of a name within its shard. -/
def slot (name : Name) : Nat := name.raw.toNat % 2 ^ slotBits

/-- The name of the empty text in every table. -/
def empty : Name := pack 0 0

/-- The name as its shard and slot. -/
def describe (name : Name) : String := s!"Name({name.shard.val}:{name.slot})"

theorem toNat_pack {shard : Fin 16} {slot : Nat} (h : slot ≤ maxSlot) :
    (pack shard slot).raw.toNat = shard.val * 2 ^ slotBits + slot := by
  have := shard.isLt
  simp only [pack, BitVec.toNat_ofNat, maxSlot, slotBits] at *
  omega

@[simp] theorem shard_pack {s : Fin 16} {slot : Nat} (h : slot ≤ maxSlot) :
    (pack s slot).shard = s := by
  apply Fin.ext
  simp only [shard, toNat_pack h, maxSlot, slotBits] at *
  omega

@[simp] theorem slot_pack {s : Fin 16} {n : Nat} (h : n ≤ maxSlot) : (pack s n).slot = n := by
  simp only [slot, toNat_pack h, maxSlot, slotBits] at *
  omega

end Name

/-- A shard has no slot left for another text. -/
structure ShardOverflow where
  shard : Nat
  count : Nat
deriving DecidableEq

/-- The message of the error. -/
def ShardOverflow.message (e : ShardOverflow) : String :=
  s!"interner shard {e.shard} is full: {e.count} names, max is {Name.maxSlot}"

/-- The texts of one shard: those of its slots in order, and the way back from a text to its
slot. -/
structure Shard where
  slotOf : String → Option Nat := fun _ => none
  slots : Array String := #[]

/-- The shard with a text in the next slot. -/
def Shard.push (shard : Shard) (text : String) : Shard where
  slotOf := fun other => if other = text then some shard.slots.size else shard.slotOf other
  slots := shard.slots.push text

/-- The interned texts by shard. -/
structure NameTable where
  shards : Vector Shard 16

namespace NameTable

/-- The shard of a text, chosen by at most eight of its bytes. -/
def shardOf (text : String) : Fin 16 :=
  Fin.ofNat 16 ((text.toUTF8.toList.take 8).foldl (fun h byte => 31 * h + byte.toNat) 0)

/-- The name of a text that has been interned before. -/
def get? (table : NameTable) (text : String) : Option Name :=
  let shard := shardOf text
  (table.shards[shard].slotOf text).map (Name.pack shard)

/-- The name of a text, interning it if it is new. A table whose shard is full keeps as it is. -/
def tryIntern (table : NameTable) (text : String) : Except ShardOverflow (Name × NameTable) :=
  match table.get? text with
  | some name => .ok (name, table)
  | none =>
      let shard := shardOf text
      let slot := table.shards[shard].slots.size
      if slot ≤ Name.maxSlot then
        .ok (.pack shard slot, ⟨table.shards.set shard (table.shards[shard].push text)⟩)
      else .error ⟨shard, slot⟩

/-- The table after interning several texts, unless there is no slot for one of them. -/
def tryInternMany (table : NameTable) : List String → Except ShardOverflow NameTable
  | [] => .ok table
  | text :: rest => do
      let (_, table) ← table.tryIntern text
      table.tryInternMany rest

/-- The table after interning a text, or as it is if there is no slot for the text. -/
def insert (table : NameTable) (text : String) : NameTable :=
  match table.tryIntern text with
  | .ok (_, table) => table
  | .error _ => table

/-- The table after interning several texts, without those for which there is no slot. It is
`tryInternMany` as long as that succeeds. -/
def insertMany (table : NameTable) (texts : List String) : NameTable :=
  texts.foldl insert table

/-- The text of a name. A name from another table may be that of no text here; it reads as the
empty one. -/
def lookup (table : NameTable) (name : Name) : String :=
  table.shards[name.shard].slots[name.slot]?.getD ""

/-- The number of interned texts. -/
def size (table : NameTable) : Nat :=
  table.shards.foldl (fun n shard => n + shard.slots.size) 0

/-- The table that holds the empty text, in slot 0 of shard 0, and the names common to all
registries. -/
def new : NameTable :=
  insertMany ⟨(Vector.replicate 16 {}).set 0 (({} : Shard).push "")⟩
    ["to_string", "parse", "self", "value"]

end NameTable

end Contracts
