/-
**Tokens in front of a comma.**

Only a comment or a quoted literal takes a comma in.  So the token at the head of a text stands there
as well if a comma is put behind the text, whatever follows the comma: a closed literal ends where it
did, and nothing else reaches up to the end of the text and goes on with a comma.

Main definitions:

* `Text.AtComma` — a text is empty or begins with a comma.

Main results:

* `Lexeme.prefix_comma`, `Lexeme.numberTail_comma`, `Lexeme.takeWhile_comma`,
  `Lexeme.operatorAt?_comma` — how far each sort of token reaches;
* `Lexeme.atHead_atComma` — **the same token stands at the head of a text with a comma behind it**.
-/

import Mathlib.Data.List.Find
import JavaOutline.Proofs.LexemeContext

set_option autoImplicit false

namespace JavaOutline

/-- The text is empty or begins with a comma. -/
def Text.AtComma (text : List Char) : Prop := ∀ c, text.head? = some c → c = ','

namespace Lexeme

variable {text : List Char}

/-- What has no comma in it stands at the head of a text with a comma behind it only if it stands at
the head of the text. -/
theorem prefix_comma (text : List Char) {part : List Char} (hpart : ',' ∉ part) (after : List Char) :
    part <+: text ++ ',' :: after ↔ part <+: text := by
  induction text generalizing part with
  | nil =>
      cases part with
      | nil => simp
      | cons c part =>
          refine ⟨fun h => ?_, fun h => absurd (List.prefix_nil.1 h) (List.cons_ne_nil c part)⟩
          obtain ⟨rfl, -⟩ := List.cons_prefix_cons.1 h
          exact absurd List.mem_cons_self hpart
  | cons d text ih =>
      cases part with
      | nil => simp
      | cons c part =>
          rw [List.cons_append, List.cons_prefix_cons, List.cons_prefix_cons,
            ih fun hmem => hpart (List.mem_cons_of_mem c hmem)]

/-- A comma is at the head only of an empty text. -/
theorem head_comma {c : Char} (hc : c ≠ ',') (after : List Char) :
    (text ++ ',' :: after).head? = some c ↔ text.head? = some c := by
  cases text with
  | nil => simp [hc.symm]
  | cons d text => rfl

/-- A test that a comma fails is passed by the head of a text or not, whatever the comma behind it. -/
theorem head_any_comma {test : Char → Bool} (hcomma : test ',' = false) (after : List Char) :
    (text ++ ',' :: after).head?.any test = text.head?.any test := by
  cases text with
  | nil => simpa using hcomma
  | cons d text => rfl

/-- A number ends in front of a comma. -/
theorem numberTail_comma (hex : Bool) (previous : Char) (count : Nat) (text after : List Char) :
    numberTail hex previous count (text ++ ',' :: after) = numberTail hex previous count text := by
  induction text generalizing previous count with
  | nil =>
      have hcomma : isNumberPart hex previous ',' = false := by
        have hplain : Text.isAsciiAlphanumeric ',' = false := by decide
        simp [isNumberPart, isExponentSign, hplain]
      rw [List.nil_append, numberTail_cons, hcomma]
      rfl
  | cons c text ih =>
      have hpoint : ((text ++ ',' :: after).head? == some '.') = (text.head? == some '.') := by
        rw [Bool.eq_iff_iff, beq_iff_eq, beq_iff_eq]
        exact head_comma (by decide) after
      rw [List.cons_append, numberTail_cons, numberTail_cons, hpoint, ih]

/-- The mark of a hexadecimal number is no comma. -/
theorem atHexMark_comma (c : Char) (text after : List Char) :
    atHexMark (c :: (text ++ ',' :: after)) = atHexMark (c :: text) := by
  by_cases hc : c = '0'
  · subst hc
    cases text <;> rfl
  · simp [atHexMark, hc]

/-- A word ends in front of a comma. -/
theorem takeWhile_comma {test : Char → Bool} (hcomma : test ',' = false) (text after : List Char) :
    (text ++ ',' :: after).takeWhile test = text.takeWhile test := by
  induction text with
  | nil => simp [hcomma]
  | cons c text ih => rw [List.cons_append, List.takeWhile_cons, List.takeWhile_cons, ih]

theorem comma_of_mem_triedOperators : ∀ op ∈ triedOperators, ',' ∈ op.toList → op = "," := by
  decide +kernel

/-- The same operator stands at the head of a text with a comma behind it. -/
theorem operatorAt?_comma (c : Char) (text after : List Char) :
    operatorAt? (c :: (text ++ ',' :: after)) = operatorAt? (c :: text) := by
  rw [operatorAt?_eq, operatorAt?_eq]
  refine List.find?_congr fun op hop => ?_
  rw [Bool.eq_iff_iff, List.isPrefixOf_iff_prefix, List.isPrefixOf_iff_prefix]
  by_cases hcomma : ',' ∈ op.toList
  · obtain rfl := comma_of_mem_triedOperators op hop hcomma
    have hsingle : ",".toList = [','] := rfl
    rw [hsingle, List.cons_prefix_cons, List.cons_prefix_cons]
    simp
  · exact prefix_comma (c :: text) hcomma after

/-- The same token stands at the head of a text in front of a comma. -/
theorem atHead_comma {c : Char} {part : List Char} {kind : Kind} (hkind : kind.isWhole = true)
    (htext : atHead c (part ++ text) = ⟨kind, part.length⟩) (after : List Char) :
    atHead c (part ++ (text ++ ',' :: after)) = ⟨kind, part.length⟩ := by
  have hslash : (part ++ text ++ ',' :: after).head? = some '/' ↔ (part ++ text).head? = some '/' :=
    head_comma (by decide) after
  have hstar : (part ++ text ++ ',' :: after).head? = some '*' ↔ (part ++ text).head? = some '*' :=
    head_comma (by decide) after
  have hdigit : (part ++ text ++ ',' :: after).head?.any Text.isAsciiDigit =
      (part ++ text).head?.any Text.isAsciiDigit := head_any_comma (by decide) after
  rw [← List.append_assoc]
  unfold atHead at htext ⊢
  simp only [hslash, hstar, hdigit]
  by_cases hblank : Text.isBlank c = true
  · rwa [if_pos hblank] at htext ⊢
  rw [if_neg hblank] at htext ⊢
  by_cases hline : c = '/' ∧ (part ++ text).head? = some '/'
  · rw [if_pos hline] at htext
    obtain ⟨rfl, -⟩ := Lexeme.mk.inj htext
    cases hkind
  rw [if_neg hline] at htext ⊢
  by_cases hcomment : c = '/' ∧ (part ++ text).head? = some '*'
  · rw [if_pos hcomment] at htext
    obtain ⟨rfl, -⟩ := Lexeme.mk.inj htext
    cases hkind
  rw [if_neg hcomment] at htext ⊢
  by_cases hstring : c = '"'
  · subst hstring
    have hquotes : atTripleQuote ('"' :: (part ++ text ++ ',' :: after)) =
        atTripleQuote ('"' :: (part ++ text)) := by
      rw [atTripleQuote_eq, atTripleQuote_eq, Bool.eq_iff_iff, List.isPrefixOf_iff_prefix,
        List.isPrefixOf_iff_prefix]
      exact prefix_comma ('"' :: (part ++ text)) (by decide) after
    rw [if_pos rfl, hquotes]
    rw [if_pos rfl] at htext
    split at htext
    next hblock =>
      rw [if_pos hblock]
      change stringOf (textBlockTail 2 _) = _ at htext
      change stringOf (textBlockTail 2 _) = _
      obtain ⟨rfl, hextra⟩ := Lexeme.mk.inj htext
      have hclosed : textBlockTail 2 ((part ++ text).drop 2) = (part.length, true) :=
        Prod.ext hextra hkind
      have hlong := lt_textBlockTail hclosed
      obtain ⟨a, b, part, rfl⟩ : ∃ a b rest, part = a :: b :: rest := by
        match part, hlong with
        | a :: b :: rest, _ => exact ⟨a, b, rest, rfl⟩
      have hlength : (a :: b :: part).length = 2 + part.length := by
        simp only [List.length_cons]
        omega
      have htail : textBlockTail 2 ((a :: b :: part ++ text ++ ',' :: after).drop 2) =
          (2 + part.length, true) := by
        rw [hlength] at hclosed
        rw [List.append_assoc]
        exact textBlockTail_append part hclosed (text ++ ',' :: after)
      rw [hclosed, htail, hlength]
      rfl
    next hblock =>
      rw [if_neg hblock]
      obtain ⟨rfl, hextra⟩ := Lexeme.mk.inj htext
      have hclosed : quotedTail '"' 0 (part ++ text) = (0 + part.length, true) :=
        Prod.ext (hextra.trans (Nat.zero_add _).symm) hkind
      rw [List.append_assoc]
      simp only [hclosed, quotedTail_append part hclosed (text ++ ',' :: after), Nat.zero_add]
  rw [if_neg hstring] at htext ⊢
  by_cases hcharacter : c = '\x27'
  · rw [if_pos hcharacter] at htext ⊢
    obtain ⟨rfl, hextra⟩ := Lexeme.mk.inj htext
    have hclosed : quotedTail '\x27' 0 (part ++ text) = (0 + part.length, true) :=
      Prod.ext (hextra.trans (Nat.zero_add _).symm) hkind
    rw [List.append_assoc]
    simp only [hclosed, quotedTail_append part hclosed (text ++ ',' :: after), Nat.zero_add]
  rw [if_neg hcharacter] at htext ⊢
  rw [atHexMark_comma, numberTail_comma, takeWhile_comma (by decide), operatorAt?_comma]
  exact htext

/-- **The same token stands at the head of a text with a comma behind it**, or with nothing. -/
theorem atHead_atComma {behind : List Char} (hbehind : Text.AtComma behind) {c : Char}
    {part : List Char} {kind : Kind} (hkind : kind.isWhole = true)
    (htext : atHead c (part ++ text) = ⟨kind, part.length⟩) :
    atHead c (part ++ (text ++ behind)) = ⟨kind, part.length⟩ := by
  cases behind with
  | nil => rwa [List.append_nil]
  | cons d after =>
      obtain rfl := hbehind d rfl
      exact atHead_comma hkind htext after

end Lexeme

end JavaOutline
