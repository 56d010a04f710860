import Contracts.Parse
import Contracts.Proofs.NumericCasts
import Contracts.Value.Text
import Mathlib.Data.List.DropRight

set_option autoImplicit false

/-! # Reading what was written

The texts that are read as a value of a type are described here without a reader: numerals by their
digits (`Numeral`), integers by a sign before a numeral (`IntType.Literal`), words in any case, and
white space around all of these (`Padded`). The reader takes exactly those texts, and gives what
they denote. What a value is written as is one of them, so it is read back as the same value; the
only values for which that fails are halves of a character beyond the first plane, for which there
is no text. Main statement: `Builtin.reads_back`. -/

namespace Contracts

/-! ## White space -/

/-- A text that consists of white space, a word of the given kind, and white space. -/
def Padded (Word : List Char → Prop) (text : String) : Prop :=
  ∃ before word after, text.toList = before ++ word ++ after ∧
    (∀ c ∈ before, isBlank c = true) ∧ (∀ c ∈ after, isBlank c = true) ∧ Word word

theorem trimBlank_eq (text : List Char) :
    trimBlank text = (text.dropWhile isBlank).rdropWhile isBlank := rfl

/-- Only white space is taken away. -/
theorem exists_trimBlank (text : List Char) : ∃ before after,
    text = before ++ trimBlank text ++ after ∧
      (∀ c ∈ before, isBlank c = true) ∧ ∀ c ∈ after, isBlank c = true := by
  refine ⟨text.takeWhile isBlank, (text.dropWhile isBlank).rtakeWhile isBlank, ?_,
    fun _ hc => List.mem_takeWhile_imp hc, fun _ hc => List.mem_rtakeWhile_imp hc⟩
  rw [trimBlank_eq, List.append_assoc, List.rdropWhile_append_rtakeWhile,
    List.takeWhile_append_dropWhile]

/-- All white space at the ends is taken away. -/
theorem trimBlank_append {before word after : List Char} (hbefore : ∀ c ∈ before, isBlank c = true)
    (hafter : ∀ c ∈ after, isBlank c = true) (solid : ∀ c ∈ word, isBlank c = false) :
    trimBlank (before ++ word ++ after) = word := by
  have hword : trimBlank word = word :=
    trimBlank_eq_self (fun c hc => solid c (List.mem_of_mem_head? hc))
      fun c hc => solid c (List.mem_of_mem_getLast? hc)
  rw [List.append_assoc, trimBlank, List.dropWhile_append_of_pos hbefore, List.dropWhile_append]
  split
  · rename_i hempty
    -- White space only is left, and none of it is of the word.
    rw [List.isEmpty_iff] at hempty
    rw [List.dropWhile_eq_nil_iff.2 hafter, ← hword, trimBlank, hempty]
  · have hreverse : ∀ c ∈ after.reverse, isBlank c = true :=
      fun c hc => hafter c (List.mem_reverse.1 hc)
    rw [List.reverse_append, List.dropWhile_append_of_pos hreverse]
    exact hword

/-- If there is no white space in the words, then what is left after trimming is the word. -/
theorem padded_iff {Word : List Char → Prop} {text : String}
    (solid : ∀ word, Word word → ∀ c ∈ word, isBlank c = false) :
    Padded Word text ↔ Word (trimBlank text.toList) := by
  constructor
  · rintro ⟨before, word, after, htext, hbefore, hafter, hword⟩
    rwa [htext, trimBlank_append hbefore hafter (solid word hword)]
  · intro h
    obtain ⟨before, after, htext, hbefore, hafter⟩ := exists_trimBlank text.toList
    exact ⟨before, _, after, htext, hbefore, hafter, h⟩

/-! ## Numerals -/

/-- One or more decimal digits, and the number that they denote. -/
inductive Numeral : List Char → Nat → Prop
  | digit {d : Nat} (lt : d < 10) : Numeral [d.digitChar] d
  | snoc {digits : List Char} {n d : Nat} (front : Numeral digits n) (lt : d < 10) :
      Numeral (digits ++ [d.digitChar]) (10 * n + d)

/-- The digits that a number is written with. -/
theorem numeral_toDigits (n : Nat) : Numeral (Nat.toDigits 10 n) n := by
  induction n using Nat.strongRecOn with
  | ind n ih =>
      by_cases hsmall : n < 10
      · rw [Nat.toDigits_of_lt_base hsmall]
        exact .digit hsmall
      · have hfront := ih (n / 10) (by omega)
        have hsnoc := hfront.snoc (Nat.mod_lt n (by decide : 0 < 10))
        rw [Nat.div_add_mod] at hsnoc
        rwa [Nat.toDigits_of_base_le (by decide) (Nat.le_of_not_lt hsmall)]

theorem Numeral.isDigit {digits : List Char} {n : Nat} (h : Numeral digits n) :
    ∀ c ∈ digits, c.isDigit = true := by
  have hdigit : ∀ {d : Nat}, d < 10 → d.digitChar.isDigit = true := fun lt => by
    rw [Nat.isDigit_digitChar, decide_eq_true lt]
  induction h with
  | digit lt => exact List.forall_mem_singleton.2 (hdigit lt)
  | snoc _ lt ih => exact List.forall_mem_append.2 ⟨ih, List.forall_mem_singleton.2 (hdigit lt)⟩

theorem Numeral.ne_nil {digits : List Char} {n : Nat} (h : Numeral digits n) : digits ≠ [] := by
  cases h <;> simp

theorem Numeral.eq_ofDigitChars {digits : List Char} {n : Nat} (h : Numeral digits n) :
    Nat.ofDigitChars 10 digits 0 = n := by
  induction h with
  | digit lt => rw [Nat.ofDigitChars_cons_digitChar_of_lt_ten lt, Nat.ofDigitChars_nil]; simp
  | snoc _ lt ih =>
      rw [Nat.ofDigitChars_append, ih, Nat.ofDigitChars_cons_digitChar_of_lt_ten lt,
        Nat.ofDigitChars_nil]

/-- A digit is the digit of a number below ten. -/
theorem exists_digitChar {c : Char} (h : c.isDigit = true) : ∃ d < 10, d.digitChar = c := by
  obtain ⟨hlow, hhigh⟩ := Char.isDigit_iff_toNat.1 h
  have hlow' : 48 ≤ c.toNat := hlow
  have hhigh' : c.toNat ≤ 57 := hhigh
  have hlt : c.toNat - 48 < 10 := by omega
  refine ⟨c.toNat - 48, hlt, Char.toNat_inj.1 ?_⟩
  rw [Nat.toNat_digitChar_of_lt_ten hlt]
  omega

theorem not_isBlank_of_isDigit {c : Char} (h : c.isDigit = true) : isBlank c = false := by
  obtain ⟨d, lt, rfl⟩ := exists_digitChar h
  revert d
  decide

theorem numeral_of_isDigit {digits : List Char} (nonempty : digits ≠ [])
    (h : ∀ c ∈ digits, c.isDigit = true) : Numeral digits (Nat.ofDigitChars 10 digits 0) := by
  induction digits using List.reverseRecOn with
  | nil => exact absurd rfl nonempty
  | append_singleton front c ih =>
      obtain ⟨d, lt, rfl⟩ := exists_digitChar (h c (by simp))
      rw [Nat.ofDigitChars_append, Nat.ofDigitChars_cons_digitChar_of_lt_ten lt,
        Nat.ofDigitChars_nil]
      by_cases hfront : front = []
      · subst hfront
        simpa using Numeral.digit lt
      · exact (ih hfront fun c hc => h c (by simp [hc])).snoc lt

/-- Digits are read as the number that they denote. -/
theorem readDigits?_eq_some_iff {digits : List Char} {n : Nat} :
    readDigits? digits = some n ↔ Numeral digits n := by
  unfold readDigits?
  constructor
  · intro h
    split at h
    · rename_i hdigits
      obtain rfl := Option.some.inj h
      exact numeral_of_isDigit hdigits.1 (List.all_eq_true.1 hdigits.2)
    · exact absurd h (by simp)
  · intro h
    rw [if_pos ⟨h.ne_nil, List.all_eq_true.2 h.isDigit⟩, h.eq_ofDigitChars]

/-! ## Integers -/

namespace IntType

variable {t : IntType} {word : List Char} {n : Int}

/-- An integer as it may be written for a type: a numeral, which may have a sign before it, but a
minus only if the type is signed. -/
inductive Literal (t : IntType) : List Char → Int → Prop
  | bare {digits : List Char} {n : Nat} (h : Numeral digits n) : Literal t digits n
  | plus {digits : List Char} {n : Nat} (h : Numeral digits n) : Literal t ('+' :: digits) n
  | minus {digits : List Char} {n : Nat} (signed : t.isSigned = true) (h : Numeral digits n) :
      Literal t ('-' :: digits) (-n)

theorem Literal.solid (h : t.Literal word n) : ∀ c ∈ word, isBlank c = false := by
  cases h with
  | bare h => exact fun c hc => not_isBlank_of_isDigit (h.isDigit c hc)
  | plus h | minus _ h =>
      exact List.forall_mem_cons.2 ⟨rfl, fun c hc => not_isBlank_of_isDigit (h.isDigit c hc)⟩

/-- A word is read as the integer that it is written for, if the type holds it. -/
theorem parse?_eq_some_iff {v : Value} :
    t.parse? word = some v ↔ ∃ n, t.Literal word n ∧ t.Holds n ∧ v = t.wrap n := by
  have hvalue : ∀ n, t.ofInt? n = some v ↔ t.Holds n ∧ v = t.wrap n :=
    fun n => Value.ofInteger?_eq_some_iff
  constructor
  · intro h
    unfold parse? at h
    split at h
    · split at h
      · rename_i digits signed
        obtain ⟨n, hread, hv⟩ := Option.bind_eq_some_iff.1 h
        exact ⟨_, .minus signed (readDigits?_eq_some_iff.1 hread), (hvalue _).1 hv⟩
      · exact absurd h (by simp)
    · obtain ⟨n, hread, hv⟩ := Option.bind_eq_some_iff.1 h
      exact ⟨_, .plus (readDigits?_eq_some_iff.1 hread), (hvalue _).1 hv⟩
    · obtain ⟨n, hread, hv⟩ := Option.bind_eq_some_iff.1 h
      exact ⟨_, .bare (readDigits?_eq_some_iff.1 hread), (hvalue _).1 hv⟩
  · rintro ⟨n, hliteral, hrest⟩
    cases hliteral with
    | @bare digits n hdigits =>
        -- A digit is no sign, so the word is read without one.
        have hsign : ∀ sign rest, sign.isDigit = false → word ≠ sign :: rest := by
          rintro sign rest hother rfl
          exact absurd (hdigits.isDigit sign (by simp)) (by simp [hother])
        unfold parse?
        split
        · exact absurd rfl (hsign _ _ (by decide))
        · exact absurd rfl (hsign _ _ (by decide))
        · rw [readDigits?_eq_some_iff.2 hdigits]
          exact (hvalue _).2 hrest
    | plus hdigits =>
        rw [parse?, readDigits?_eq_some_iff.2 hdigits]
        exact (hvalue _).2 hrest
    | minus signed hdigits =>
        rw [parse?, if_pos signed, readDigits?_eq_some_iff.2 hdigits]
        exact (hvalue _).2 hrest

/-- The text of an integer of a type is written for it. -/
theorem literal_toString (holds : t.Holds n) : t.Literal (toString n).toList n := by
  rw [Int.toString_eq_repr, Int.repr_eq_if]
  split
  · rename_i hnonneg
    obtain ⟨k, rfl⟩ := Int.eq_ofNat_of_zero_le hnonneg
    rw [Int.toNat_natCast, Nat.repr_eq_ofList_toDigits, String.toList_ofList]
    exact .bare (numeral_toDigits k)
  · rename_i hneg
    obtain ⟨k, rfl⟩ : ∃ k : Nat, n = -(k : Int) := ⟨(-n).toNat, by omega⟩
    have hsigned : t.isSigned = true := by
      rcases t.neg_minValue_cases with ⟨hsigned, -⟩ | ⟨-, hmin⟩
      · exact hsigned
      · exact absurd (hmin ▸ holds.1) hneg
    rw [neg_neg, Int.toNat_natCast, Nat.repr_eq_ofList_toDigits, String.toList_append]
    refine (congrArg (['-'] ++ ·) String.toList_ofList).symm ▸ ?_
    exact .minus hsigned (numeral_toDigits k)

end IntType

/-! ## Truth values -/

/-- What is read as a truth value: its name, in which capitals do not count. -/
def Spells (b : Bool) (word : List Char) : Prop := word.map Char.toLower = (toString b).toList

/-- White space has no small letters. -/
theorem toLower_of_isBlank {c : Char} (h : isBlank c = true) : c.toLower = c := by
  unfold Char.toLower
  split
  · rename_i hupper
    have hlow : 65 ≤ c.toNat := UInt32.le_iff_toNat_le.1 hupper.1
    have hhigh : c.toNat ≤ 90 := UInt32.le_iff_toNat_le.1 hupper.2
    simp [isBlank] at h
    omega
  · rfl

theorem Spells.solid {b : Bool} {word : List Char} (h : Spells b word) :
    ∀ c ∈ word, isBlank c = false := by
  intro c hc
  by_contra hblank
  have hblank : isBlank c = true := by simpa using hblank
  have hmem : c ∈ (toString b).toList := by
    rw [← h]
    exact List.mem_map.2 ⟨c, hc, toLower_of_isBlank hblank⟩
  have hletters : ∀ b : Bool, (toString b).toList.any isBlank = false := by decide
  exact absurd hblank (List.any_eq_false.1 (hletters b) c hmem)

/-! ## Code units -/

/-- Half of a character beyond the first plane. -/
def IsSurrogate (unit : BitVec 16) : Prop := 0xd800 ≤ unit.toNat ∧ unit.toNat < 0xe000

instance (unit : BitVec 16) : Decidable (IsSurrogate unit) := inferInstanceAs (Decidable (_ ∧ _))

/-- A text is one code unit if it is one character of the first plane. -/
theorem flatMap_utf16Units_eq_singleton_iff {text : List Char} {unit : BitVec 16} :
    text.flatMap utf16Units = [unit] ↔
      ∃ c, text = [c] ∧ c.toNat < 0x10000 ∧ unit = BitVec.ofNat 16 c.toNat := by
  have hne : ∀ c, utf16Units c ≠ [] := fun c => by
    unfold utf16Units
    split <;> simp
  constructor
  · intro h
    cases text with
    | nil => simp at h
    | cons c rest =>
        rw [List.flatMap_cons] at h
        rcases List.append_eq_singleton_iff.1 h with ⟨hnil, -⟩ | ⟨hunit, hrest⟩
        · exact absurd hnil (hne c)
        · have hnil : rest = [] := by
            cases rest with
            | nil => rfl
            | cons d _ => exact absurd (List.append_eq_nil_iff.1 hrest).1 (hne d)
          unfold utf16Units at hunit
          split at hunit
          · rename_i hplane
            exact ⟨c, by rw [hnil], hplane, (List.singleton_inj.1 hunit).symm⟩
          · simp at hunit
  · rintro ⟨c, rfl, hplane, rfl⟩
    rw [List.flatMap_singleton, utf16Units, if_pos hplane]

/-- A code unit that is no half of a character is a character of the first plane. -/
theorem toNat_charOfUnit {unit : BitVec 16} (h : ¬IsSurrogate unit) :
    (charOfUnit unit).toNat = unit.toNat := by
  have hlt := unit.isLt
  have hvalid : unit.toNat.isValidChar := by
    unfold IsSurrogate at h
    unfold Nat.isValidChar
    omega
  rw [charOfUnit, charOfUnit?, dif_pos hvalid]
  rfl

theorem charOfUnit_of_isSurrogate {unit : BitVec 16} (h : IsSurrogate unit) :
    charOfUnit unit = '\ufffd' := by
  have hvalid : ¬unit.toNat.isValidChar := by
    unfold IsSurrogate at h
    unfold Nat.isValidChar
    omega
  rw [charOfUnit, charOfUnit?, dif_neg hvalid]
  rfl

namespace Builtin

variable {text : String} {v : Value} {t : IntType} {b : Builtin}

theorem parse_eq_ok_iff : b.parse text = .ok v ↔ b.parse? text = some v := by
  unfold parse
  split <;> simp [*]

theorem parse_eq_error_iff {e : EvalError} :
    b.parse text = .error e ↔ (∀ v, b.parse text ≠ .ok v) ∧ e = .parseFailure text b.name := by
  unfold parse
  split <;> simp [eq_comm]

/-! ## What is read -/

/-- A truth value is read in any case, and white space around it does not count. -/
theorem parse_bool_eq_ok_iff :
    Builtin.bool.parse text = .ok v ↔ ∃ b, v = .bool b ∧ Padded (Spells b) text := by
  have hword : ∀ b : Bool, Padded (Spells b) text ↔
      String.ofList ((trimBlank text.toList).map Char.toLower) = toString b := fun b => by
    rw [padded_iff fun _ => Spells.solid, Spells, ← String.toList_inj, String.toList_ofList]
  have htrue : toString true = "true" := rfl
  have hfalse : toString false = "false" := rfl
  rw [parse_eq_ok_iff, Bool.exists_bool, hword, hword, htrue, hfalse]
  simp only [parse?]
  split
  · simp [*, eq_comm]
  · split
    · simp [*, eq_comm]
    · simp [*]

/-- One character of the first plane is read as its code unit, and nothing else is read. -/
theorem parse_char_eq_ok_iff : (Builtin.int .char).parse text = .ok v ↔ ∃ c : Char,
    text = c.toString ∧ c.toNat < 0x10000 ∧ v = .int .char (BitVec.ofNat 16 c.toNat) := by
  have htext : ∀ c : Char, text = c.toString ↔ text.toList = [c] := fun c => by
    rw [← String.toList_inj]
    exact Iff.of_eq (congrArg (text.toList = ·) (String.toList_singleton c))
  rw [parse_eq_ok_iff]
  simp only [htext]
  constructor
  · intro h
    simp only [parse?] at h
    split at h
    · rename_i unit hunit
      obtain ⟨c, hc, hplane, rfl⟩ := flatMap_utf16Units_eq_singleton_iff.1 hunit
      exact ⟨c, hc, hplane, (Option.some.inj h).symm⟩
    · exact absurd h (by simp)
  · rintro ⟨c, hc, hplane, rfl⟩
    simp only [parse?, flatMap_utf16Units_eq_singleton_iff.2 ⟨c, hc, hplane, rfl⟩]

/-- An integer is read as it is written for the type, if the type holds it, and white space around
it does not count. -/
theorem parse_int_eq_ok_iff (other : t ≠ .char) : (Builtin.int t).parse text = .ok v ↔
    ∃ n, Padded (t.Literal · n) text ∧ t.Holds n ∧ v = t.wrap n := by
  have hread : (Builtin.int t).parse? text = t.parse? (trimBlank text.toList) := by
    cases t with
    | char => exact absurd rfl other
    | i8 | u8 | i16 | u16 | i32 | u32 | i64 | u64 => rfl
  rw [parse_eq_ok_iff, hread, IntType.parse?_eq_some_iff]
  simp only [padded_iff fun _ => IntType.Literal.solid]

end Builtin

/-! ## What is written -/

/-- The unit as which it is shown: half of a character beyond the first plane as the replacement
character. -/
def shownUnit (unit : BitVec 16) : BitVec 16 := if IsSurrogate unit then 0xfffd else unit

theorem toNat_charOfUnit_eq (unit : BitVec 16) :
    (charOfUnit unit).toNat = (shownUnit unit).toNat := by
  unfold shownUnit
  split
  · rename_i hsurrogate
    rw [charOfUnit_of_isSurrogate hsurrogate]
    rfl
  · exact toNat_charOfUnit ‹_›

namespace Builtin

/-- A code unit is read as what it is shown as. -/
theorem parse_charOfUnit (unit : BitVec 16) :
    (Builtin.int .char).parse (charOfUnit unit).toString = .ok (.int .char (shownUnit unit)) := by
  have hunit : BitVec.ofNat 16 (charOfUnit unit).toNat = shownUnit unit := by
    rw [toNat_charOfUnit_eq, BitVec.ofNat_toNat, BitVec.setWidth_eq]
  refine parse_char_eq_ok_iff.2 ⟨charOfUnit unit, rfl, ?_, ?_⟩
  · rw [toNat_charOfUnit_eq]
    exact (shownUnit unit).isLt
  · rw [hunit]

theorem parse_text_int {t : IntType} (other : t ≠ .char) (bits : BitVec t.width) :
    (Builtin.int t).parse (Value.int t bits).text = .ok (.int t bits) := by
  have htext : (Value.int t bits).text = toString (t.toInt bits) := by
    cases t with
    | char => exact absurd rfl other
    | i8 | u8 | i16 | u16 | i32 | u32 | i64 | u64 => rfl
  have hholds := t.holds_toInt bits
  rw [htext, parse_int_eq_ok_iff other]
  refine ⟨t.toInt bits, ⟨[], _, [], ?_, nofun, nofun, t.literal_toString hholds⟩, hholds, ?_⟩
  · rw [List.nil_append, List.append_nil]
  · rw [IntType.wrap, t.ofInt_toInt]

/-- The text of a value is read as that value, but for code units that have no text. -/
theorem parse_text_of_builtin? {b : Builtin} {v : Value} (hv : v.builtin? = some b)
    (kind : b = .bool ∨ b.isIntegral = true ∨ b = .str)
    (plain : ∀ unit, v = .int .char unit → ¬IsSurrogate unit) : b.parse v.text = .ok v := by
  cases v with
  | bool x =>
      obtain rfl : .bool = b := Option.some.inj hv
      cases x <;> decide +kernel
  | str text =>
      obtain rfl : .str = b := Option.some.inj hv
      rfl
  | int t bits =>
      obtain rfl : .int t = b := Option.some.inj hv
      by_cases hchar : t = .char
      · subst hchar
        have hshown : shownUnit bits = bits := if_neg (plain bits rfl)
        have hread := parse_charOfUnit bits
        rw [hshown] at hread
        exact hread
      · exact parse_text_int hchar bits
  | float t x =>
      obtain rfl : .float t = b := Option.some.inj hv
      simp [isIntegral] at kind
  | void =>
      obtain rfl : .void = b := Option.some.inj hv
      simp [isIntegral] at kind
  | null | object => simp [Value.builtin?] at hv

/-- **Reading inverts writing, and reads nothing else.** The text of a truth value, an integer or a
text is read as that value. The one exception is half of a character beyond the first plane, which
is written, and so read, as the replacement character. Integers, `char` apart, are read from
numerals with an optional sign, a minus only for a signed type, if the type holds them; truth values
from their names in any case; and white space around either does not count. A `char` is read from
one character of the first plane, whatever it is, with nothing around it. All other texts fail, and
the error says of which text and type. -/
theorem reads_back (text : String) (v : Value) :
    (∀ b, v.builtin? = some b → b = .bool ∨ b.isIntegral = true ∨ b = .str →
        (∀ unit, v = .int .char unit → ¬IsSurrogate unit) → b.parse v.text = .ok v) ∧
      (∀ unit, IsSurrogate unit → (Value.int .char unit).text = "\ufffd" ∧
        (Builtin.int .char).parse (Value.int .char unit).text = .ok (.int .char 0xfffd)) ∧
      (∀ t ≠ .char, (Builtin.int t).parse text = .ok v ↔ ∃ n,
        Padded (t.Literal · n) text ∧ t.Holds n ∧ v = t.wrap n ∧ v.toInteger? = some n) ∧
      (Builtin.bool.parse text = .ok v ↔ ∃ b, v = .bool b ∧ Padded (Spells b) text) ∧
      ((Builtin.int .char).parse text = .ok v ↔ ∃ c : Char,
        text = c.toString ∧ c.toNat < 0x10000 ∧ v = .int .char (BitVec.ofNat 16 c.toNat)) ∧
      ∀ (b : Builtin) (e : EvalError),
        b.parse text = .error e ↔ (∀ v, b.parse text ≠ .ok v) ∧ e = .parseFailure text b.name := by
  refine ⟨fun b hv kind plain => parse_text_of_builtin? hv kind plain, fun unit hunit => ?_,
    fun t other => ?_, parse_bool_eq_ok_iff, parse_char_eq_ok_iff,
    fun b e => parse_eq_error_iff⟩
  · have hshown : shownUnit unit = 0xfffd := if_pos hunit
    have htext : (Value.int .char unit).text = (charOfUnit unit).toString := rfl
    refine ⟨?_, ?_⟩
    · rw [htext, charOfUnit_of_isSurrogate hunit]
      rfl
    · rw [htext, parse_charOfUnit, hshown]
      rfl
  · rw [parse_int_eq_ok_iff other]
    refine exists_congr fun n => and_congr_right fun _ => and_congr_right fun holds => ?_
    refine ⟨fun hv => ⟨hv, ?_⟩, fun h => h.1⟩
    rw [hv, Value.toInteger?_wrap holds]

/-- The greatest `u8` with a sign, a leading zero and white space of two sorts is read, and what it
is written as is read too. A minus is not read for `u8`, not even before a zero. -/
theorem reads_back_greatest :
    let greatest : Value := .int .u8 255
    (Builtin.int .u8).parse "\t+0255\u2003" = .ok greatest ∧
      (Builtin.int .u8).parse greatest.text = .ok greatest ∧
      (Builtin.int .i8).parse "-0" = .ok (.int .i8 0) ∧
      (Builtin.int .u8).parse "-0" = .error (.parseFailure "-0" "u8") ∧
      (Builtin.int .char).parse (Value.int .char 0xdfff).text = .ok (.int .char 0xfffd) := by
  intro greatest
  obtain ⟨hback, -, hint, -⟩ := reads_back "\t+0255\u2003" greatest
  obtain ⟨-, hsurrogate, hzero, -⟩ := reads_back "-0" (.int .i8 0)
  have hdigits : Numeral ['0', '2', '5', '5'] 255 := readDigits?_eq_some_iff.1 (by decide)
  have hnought : Numeral ['0'] 0 := readDigits?_eq_some_iff.1 (by decide)
  have hplain : ∀ unit, greatest = .int .char unit → ¬IsSurrogate unit := fun unit h => by
    have hkind : some (Builtin.int .u8) = some (.int .char) := congrArg Value.builtin? h
    exact absurd hkind (by decide)
  refine ⟨(hint .u8 (by decide)).2 ⟨255, ?_, by decide, rfl, rfl⟩, hback _ rfl (by decide) hplain,
    (hzero .i8 (by decide)).2 ⟨0, ?_, by decide, rfl, rfl⟩, ?_,
    (hsurrogate 0xdfff#16 (by decide)).2⟩
  · exact ⟨['\t'], _, ['\u2003'], rfl, List.forall_mem_singleton.2 rfl,
      List.forall_mem_singleton.2 rfl, .plus hdigits⟩
  · exact ⟨[], _, [], rfl, nofun, nofun, .minus rfl hnought⟩
  · decide +kernel

end Builtin

end Contracts
