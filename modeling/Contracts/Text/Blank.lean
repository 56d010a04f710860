set_option autoImplicit false

/-! # White space

The characters with the Unicode property `White_Space`, and text without them at its ends. -/

namespace Contracts

/-- Whether the character is white space. -/
def isBlank (c : Char) : Bool :=
  let n := c.toNat
  (0x9 ≤ n && n ≤ 0xd) || n == 0x20 || n == 0x85 || n == 0xa0 || n == 0x1680 ||
    (0x2000 ≤ n && n ≤ 0x200a) || n == 0x2028 || n == 0x2029 || n == 0x202f || n == 0x205f ||
    n == 0x3000

/-- The text without white space at either end. -/
def trimBlank (text : List Char) : List Char :=
  ((text.dropWhile isBlank).reverse.dropWhile isBlank).reverse

/-- Text that has no white space at either end is left alone. -/
theorem trimBlank_eq_self {text : List Char}
    (first : ∀ c ∈ text.head?, isBlank c = false)
    (last : ∀ c ∈ text.getLast?, isBlank c = false) : trimBlank text = text := by
  have drop_eq : ∀ s : List Char, (∀ c ∈ s.head?, isBlank c = false) →
      s.dropWhile isBlank = s := by
    intro s h
    cases s with
    | nil => rfl
    | cons c r => simp [h c rfl]
  rw [trimBlank, drop_eq text first, drop_eq text.reverse (by simpa using last),
    List.reverse_reverse]

end Contracts
