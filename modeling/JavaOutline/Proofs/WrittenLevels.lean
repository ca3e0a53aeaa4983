/-
**The levels that texts write.**

A verbosity flag carries its level as a text.  Blanks around it do not matter, and neither does a plus
sign in front; what is left must be ASCII digits whose decimal value fits 32 bits.

Main definitions:

* `Text.decimalValue` — the value of digits, the most significant one first;
* `WritesLevel` — a text writes a level.

Main results:

* `Text.digitsFrom?_eq_some_iff`, `Text.natBelow?_eq_some_iff` — what is read from digits is their value;
* `Text.toList_trim`, `Text.trim_eq` — trimming takes away blanks, and no more;
* `verbosityLevel?_eq_some_iff` — **a level is read from exactly the texts that write it**.
-/

import Mathlib.Data.List.TakeWhile
import Mathlib.Data.Nat.Digits.Defs
import JavaOutline.Session.Verbosity

set_option autoImplicit false

namespace JavaOutline

namespace Text

/-! ### Digits -/

/-- The value of decimal digits, the most significant one first. -/
def decimalValue (digits : List Char) : Nat :=
  Nat.ofDigits 10 (digits.reverse.map fun c => c.toNat - '0'.toNat)

/-- A digit in front counts as often as there are numbers of so many digits behind it. -/
theorem decimalValue_cons (c : Char) (digits : List Char) :
    decimalValue (c :: digits) = (c.toNat - '0'.toNat) * 10 ^ digits.length + decimalValue digits := by
  unfold decimalValue
  rw [List.reverse_cons, List.map_append, Nat.ofDigits_append, List.length_map, List.length_reverse,
    List.map_singleton, Nat.ofDigits_singleton, Nat.add_comm, Nat.mul_comm]

theorem digit?_eq_some_iff {c : Char} {d : Nat} :
    digit? c = some d ↔ c.isDigit = true ∧ c.toNat - '0'.toNat = d := by
  have hdigit : c.isDigit = true ↔ '0' ≤ c ∧ c ≤ '9' := by
    simp [Char.isDigit, Char.le_def]
  rw [hdigit, digit?]
  split <;> simp_all

/-- **Digits are read as their value**, behind digits that are worth `value` already. -/
theorem digitsFrom?_eq_some_iff {value n : Nat} {digits : List Char} :
    digitsFrom? value digits = some n ↔
      (∀ c ∈ digits, c.isDigit = true) ∧ value * 10 ^ digits.length + decimalValue digits = n := by
  induction digits generalizing value with
  | nil => simp [digitsFrom?, decimalValue]
  | cons c digits ih =>
      rw [List.forall_mem_cons, decimalValue_cons, List.length_cons]
      cases hdigit : digit? c with
      | none =>
          have hnot : c.isDigit = false := by
            rw [Bool.eq_false_iff]
            intro h
            rw [digit?_eq_some_iff.2 ⟨h, rfl⟩] at hdigit
            cases hdigit
          simp [digitsFrom?, hdigit, hnot]
      | some d =>
          obtain ⟨his, rfl⟩ := digit?_eq_some_iff.1 hdigit
          have hvalue : (10 * value + (c.toNat - '0'.toNat)) * 10 ^ digits.length + decimalValue digits =
              value * 10 ^ (digits.length + 1) +
                ((c.toNat - '0'.toNat) * 10 ^ digits.length + decimalValue digits) := by
            rw [pow_succ]
            ring
          simp only [digitsFrom?, hdigit, ih, hvalue, his, true_and]

/-- A number is read from digits, with or without a plus sign in front of them. -/
theorem natBelow?_eq_some_iff {bound n : Nat} {text : String} :
    natBelow? bound text = some n ↔
      ∃ digits, (text.toList = digits ∨ text.toList = '+' :: digits) ∧ digits ≠ [] ∧
        (∀ c ∈ digits, c.isDigit = true) ∧ decimalValue digits = n ∧ n < bound := by
  have hdigits {digits : List Char} : (digits? digits).filter (· < bound) = some n ↔
      digits ≠ [] ∧ (∀ c ∈ digits, c.isDigit = true) ∧ decimalValue digits = n ∧ n < bound := by
    rw [Option.filter_eq_some_iff, decide_eq_true_iff]
    cases digits with
    | nil => simp [digits?]
    | cons c digits =>
        rw [show digits? (c :: digits) = digitsFrom? 0 (c :: digits) from rfl, digitsFrom?_eq_some_iff,
          Nat.zero_mul, Nat.zero_add, and_assoc]
        simp
  unfold natBelow?
  dsimp only
  split
  next rest hplus =>
    rw [hdigits, hplus]
    constructor
    · exact fun h => ⟨rest, .inr rfl, h⟩
    · rintro ⟨digits, rfl | hrest, hne, hall, h⟩
      · exact absurd (hall '+' List.mem_cons_self) (by decide)
      · obtain rfl := List.cons_inj_right '+' |>.1 hrest
        exact ⟨hne, hall, h⟩
  next hplain =>
    rw [hdigits]
    constructor
    · exact fun h => ⟨text.toList, .inl rfl, h⟩
    · rintro ⟨digits, rfl | hplus, h⟩
      · exact h
      · exact absurd hplus (hplain digits)

/-! ### Blanks -/

/-- **What trimming takes away are blanks**, in front and behind. -/
theorem toList_trim (text : String) :
    ∃ front back, text.toList = front ++ (trim text).toList ++ back ∧
      ∀ c ∈ front ++ back, isBlank c = true := by
  have hblanks {c : Char} {text : List Char} (h : c ∈ text.takeWhile isBlank) : isBlank c = true :=
    List.mem_takeWhile_imp h
  refine ⟨text.toList.takeWhile isBlank, ((trimStart text.toList).reverse.takeWhile isBlank).reverse,
    ?_, fun c hc => ?_⟩
  · have hback : trimStart text.toList =
        trimEnd (trimStart text.toList) ++ ((trimStart text.toList).reverse.takeWhile isBlank).reverse := by
      rw [trimEnd, ← List.reverse_append, List.takeWhile_append_dropWhile, List.reverse_reverse]
    rw [trim, String.toList_ofList, List.append_assoc, ← hback]
    exact List.takeWhile_append_dropWhile.symm
  · rcases List.mem_append.1 hc with hc | hc
    · exact hblanks hc
    · exact hblanks (List.mem_reverse.1 hc)

/-- **Trimming takes away no more than the blanks** around what begins and ends with something else. -/
theorem trim_eq {text : String} {front back : List Char} {first : Char} {others : List Char}
    (h : text.toList = front ++ (first :: others) ++ back)
    (hblanks : ∀ c ∈ front ++ back, isBlank c = true) (hfirst : isBlank first = false)
    (hlast : ∀ c ∈ (first :: others).getLast?, isBlank c = false) :
    (trim text).toList = first :: others := by
  obtain ⟨hfront, hback⟩ := List.forall_mem_append.1 hblanks
  have hstart : trimStart text.toList = first :: others ++ back := by
    rw [h, List.append_assoc, trimStart_append_of_blank hfront, trimStart, List.cons_append,
      List.dropWhile_cons_of_neg (by rw [hfirst]; exact Bool.false_ne_true)]
  have hbehind : back.reverse.dropWhile isBlank = [] :=
    List.dropWhile_eq_nil_iff.2 fun c hc => hback c (List.mem_reverse.1 hc)
  have hend : (first :: others).reverse.dropWhile isBlank = (first :: others).reverse := by
    obtain ⟨init, last, hsplit⟩ : ∃ init last, first :: others = init ++ [last] :=
      ⟨_, _, (List.dropLast_concat_getLast (List.cons_ne_nil first others)).symm⟩
    have hnone : isBlank last = false := hlast last (by simp [hsplit])
    rw [hsplit, List.reverse_append, List.reverse_singleton, List.singleton_append,
      List.dropWhile_cons_of_neg (by rw [hnone]; exact Bool.false_ne_true)]
  rw [trim, String.toList_ofList, hstart, trimEnd, List.reverse_append, List.dropWhile_append, hbehind,
    List.isEmpty_nil, if_pos rfl, hend, List.reverse_reverse]

end Text

/-! ### Levels -/

/-- A text writes a level: the digits of its value, which fits 32 bits, with or without a plus sign in
front of them, between blanks. -/
def WritesLevel (text : String) (level : Nat) : Prop :=
  ∃ front body back digits : List Char, text.toList = front ++ body ++ back ∧
    (∀ c ∈ front ++ back, Text.isBlank c = true) ∧ (body = digits ∨ body = '+' :: digits) ∧
    digits ≠ [] ∧ (∀ c ∈ digits, c.isDigit = true) ∧ Text.decimalValue digits = level ∧ level < 2 ^ 32

/-- A digit is no blank. -/
theorem Text.isBlank_of_isDigit {c : Char} (h : c.isDigit = true) : Text.isBlank c = false := by
  simp only [Char.isDigit, Bool.and_eq_true, decide_eq_true_eq, ge_iff_le, UInt32.le_iff_toNat_le] at h
  have hlow : 48 ≤ c.toNat := h.1
  have hhigh : c.toNat ≤ 57 := h.2
  simp only [Text.isBlank, Bool.or_eq_false_iff, Bool.and_eq_false_iff, decide_eq_false_iff_not,
    beq_eq_false_iff_ne]
  omega

/-- **A level is read from exactly the texts that write it.** -/
theorem verbosityLevel?_eq_some_iff {text : String} {level : Nat} :
    verbosityLevel? text = some level ↔ WritesLevel text level := by
  rw [verbosityLevel?, Text.word32?, Text.natBelow?_eq_some_iff]
  constructor
  · rintro ⟨digits, hbody, h⟩
    obtain ⟨front, back, htext, hblanks⟩ := Text.toList_trim text
    exact ⟨front, _, back, digits, htext, hblanks, hbody, h⟩
  · rintro ⟨front, body, back, digits, htext, hblanks, hbody, hne, hall, h⟩
    have hlast (c : Char) (hc : c ∈ digits.getLast?) : Text.isBlank c = false :=
      Text.isBlank_of_isDigit (hall c (List.mem_of_getLast? hc))
    obtain ⟨first, others, rfl⟩ := List.exists_cons_of_ne_nil hne
    refine ⟨first :: others, ?_, hne, hall, h⟩
    rcases hbody with rfl | rfl
    · exact .inl (Text.trim_eq htext hblanks (Text.isBlank_of_isDigit (hall _ List.mem_cons_self)) hlast)
    · refine .inr (Text.trim_eq htext hblanks (by decide) fun c hc => hlast c ?_)
      rwa [List.getLast?_cons_cons] at hc

end JavaOutline
