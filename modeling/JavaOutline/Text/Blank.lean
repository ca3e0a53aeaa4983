/-
**White space.**

The blanks between tokens, and the margins that values are trimmed of, are the characters with the
Unicode property `White_Space`.

Main definitions:

* `Text.isBlank` — the character is white space;
* `Text.trim` — a text without the blanks at its two ends.

Main results:

* `Text.isBlank_of_isWhitespace` — the ASCII blanks of the core library are blanks here;
* `Text.trimStart_append_of_blank` — blanks in front do not matter.
-/

set_option autoImplicit false

namespace JavaOutline

namespace Text

/-! ### The class -/

/-- White space: the Unicode property `White_Space`. -/
def isBlank (c : Char) : Bool :=
  let point := c.toNat
  (9 ≤ point && point ≤ 13) || point == 0x20 || point == 0x85 || point == 0xA0 ||
    point == 0x1680 || (0x2000 ≤ point && point ≤ 0x200A) || point == 0x2028 ||
    point == 0x2029 || point == 0x202F || point == 0x205F || point == 0x3000

/-- The blanks of the core library, which are ASCII, are blanks. -/
theorem isBlank_of_isWhitespace {c : Char} (h : c.isWhitespace = true) : isBlank c = true := by
  simp only [Char.isWhitespace, Bool.or_eq_true, decide_eq_true_eq] at h
  rcases h with ((rfl | rfl) | rfl) | rfl <;> decide

/-! ### Trimming -/

/-- The text from its first character that is no blank. -/
def trimStart (text : List Char) : List Char :=
  text.dropWhile isBlank

/-- The text up to its last character that is no blank. -/
def trimEnd (text : List Char) : List Char :=
  (text.reverse.dropWhile isBlank).reverse

/-- The text without the blanks at its two ends. -/
def trim (text : String) : String :=
  String.ofList (trimEnd (trimStart text.toList))

/-- Blanks in front of a text do not change what is left of it. -/
theorem trimStart_append_of_blank {front text : List Char} (h : ∀ c ∈ front, isBlank c = true) :
    trimStart (front ++ text) = trimStart text := by
  induction front with
  | nil => rfl
  | cons c front ih =>
      have hc : isBlank c = true := h c (by simp)
      have hfront : ∀ d ∈ front, isBlank d = true := fun d hd => h d (by simp [hd])
      simpa [trimStart, hc] using ih hfront

end Text

end JavaOutline
