/-
**What a token owes to its surroundings.**

How far a token reaches depends on what stands behind it: a word ends where no more letters come, an
operator is the longest that fits, and two points in a row end a number.  Here the text behind a token
is replaced by another one that goes on alike, up to a place where it ends or has a blank.  The same
token then stands at the head, unless it is a number in front of two points of which one is cut off.

Main definitions:

* `Text.Follows` — a text goes on as another one does, up to its end or a blank;
* `Lexeme.Kind.isWhole` — the lexeme is a token with which nothing is wrong.

Main results:

* `quotedTail_follows`, `textBlockTail_follows`, `numberTail_follows`, `operatorAt?_follows` — how far
  each sort of token reaches;
* `Lexeme.atHead_follows` — **the same token stands at the head of both texts**;
* `Lexeme.extra_atHead_le` — a token lies in its text.
-/

import JavaOutline.Token.Lexeme

set_option autoImplicit false

namespace JavaOutline

/-! ### Texts that go on alike -/

namespace Text

/-- The second text goes on as the first one does, up to a place where it ends or has a blank. -/
inductive Follows : List Char → List Char → Prop
  | nil {text : List Char} : Follows text []
  | blank {text other : List Char} : Follows text (' ' :: other)
  | cons {c : Char} {text other : List Char} (h : Follows text other) :
      Follows (c :: text) (c :: other)

namespace Follows

variable {text other : List Char}

/-- Behind the same beginning both go on alike. -/
theorem append (h : Follows text other) (front : List Char) :
    Follows (front ++ text) (front ++ other) := by
  induction front with
  | nil => exact h
  | cons c front ih => exact ih.cons

/-- What the second text begins with, if there is no blank in it, the first one begins with. -/
theorem isPrefix (h : Follows text other) {part : List Char} (hpart : ' ' ∉ part)
    (hother : part <+: other) : part <+: text := by
  induction h generalizing part with
  | nil =>
      rw [List.prefix_nil.1 hother]
      exact List.nil_prefix
  | blank =>
      cases part with
      | nil => exact List.nil_prefix
      | cons c part =>
          obtain ⟨rfl, -⟩ := List.cons_prefix_cons.1 hother
          exact absurd List.mem_cons_self hpart
  | @cons c text other h ih =>
      cases part with
      | nil => exact List.nil_prefix
      | cons d part =>
          obtain ⟨rfl, hlater⟩ := List.cons_prefix_cons.1 hother
          exact List.cons_prefix_cons.2 ⟨rfl, ih (fun hmem => hpart (List.mem_cons_of_mem _ hmem))
            hlater⟩

/-- The second text begins with a character that is no blank only if the first one does. -/
theorem head_eq (h : Follows text other) {c : Char} (hc : c ≠ ' ') (hother : other.head? = some c) :
    text.head? = some c := by
  obtain ⟨later, rfl⟩ := List.head?_eq_some_iff.1 hother
  have hblank : ' ' ∉ [c] := by simpa using hc.symm
  obtain ⟨rest, hrest⟩ := h.isPrefix hblank (by simp)
  rw [← hrest]
  rfl

/-- A test that a blank fails is not passed by the head of the second text if the head of the first
one does not pass it. -/
theorem head_any (h : Follows text other) {test : Char → Bool} (hblank : test ' ' = false)
    (htext : text.head?.any test = false) : other.head?.any test = false := by
  cases h with
  | nil => rfl
  | blank => simpa using hblank
  | cons h => exact htext

end Follows

end Text

open Text (Follows)

namespace Lexeme

variable {text other : List Char}

/-- The lexeme is a token with which nothing is wrong. -/
def Kind.isWhole : Kind → Bool
  | .string closed | .character closed => closed
  | .number | .word | .operator => true
  | .blank | .lineComment | .blockComment _ | .unknown => false

/-! ### Quoted literals -/

/-- What a literal does with one character. -/
theorem quotedTail_cons (quote : Char) (count : Nat) (c : Char) (text : List Char) :
    quotedTail quote count (c :: text) =
      if c = quote then (count + 1, true)
      else if isLineEnd c then (count, false)
      else if c = '\\' then
        match text with
        | [] => (count + 1, false)
        | d :: text => if isLineEnd d then (count + 1, false) else quotedTail quote (count + 2) text
      else quotedTail quote (count + 1) text := by
  cases text with
  | nil => simp [quotedTail]
  | cons d text => rw [quotedTail]

/-- A literal that is closed has its closing quote. -/
theorem lt_quotedTail {quote : Char} {count last : Nat} {text : List Char}
    (h : quotedTail quote count text = (last, true)) : count < last := by
  fun_induction quotedTail quote count text with
  | case1 => cases h
  | case2 => cases h; omega
  | case3 => cases h
  | case4 => cases h
  | case5 => cases h; omega
  | case6 => cases h
  | case7 => cases h
  | case8 count d text _ _ _ ih =>
      have hlt := ih h
      omega
  | case9 count c d text _ _ _ ih =>
      have hlt := ih h
      omega

/-- A literal that is closed reaches as far whatever stands behind it. -/
theorem quotedTail_append {quote : Char} {count : Nat} (part : List Char) {text : List Char}
    (h : quotedTail quote count (part ++ text) = (count + part.length, true))
    (other : List Char) :
    quotedTail quote count (part ++ other) = (count + part.length, true) := by
  generalize hlength : part.length = length at h ⊢
  induction length using Nat.strongRecOn generalizing part count with
  | ind length ih =>
      cases part with
      | nil =>
          have hlt := lt_quotedTail h
          rw [← hlength, List.length_nil] at hlt
          omega
      | cons c part =>
          rw [List.length_cons] at hlength
          rw [List.cons_append, quotedTail_cons] at h ⊢
          split at h
          next hquote => rw [if_pos hquote, ← h]
          next hquote =>
            rw [if_neg hquote]
            split at h
            next => exact absurd (Prod.mk.inj h).2 Bool.false_ne_true
            next hline =>
              rw [if_neg hline]
              split at h
              next hescape =>
                rw [if_pos hescape]
                cases part with
                | nil =>
                    rw [List.nil_append] at h
                    -- The backslash would take a character along that lies behind the literal.
                    exfalso
                    split at h
                    · exact absurd (Prod.mk.inj h).2 Bool.false_ne_true
                    · split at h
                      · exact absurd (Prod.mk.inj h).2 Bool.false_ne_true
                      · have hlt := lt_quotedTail h
                        rw [← hlength, List.length_nil] at hlt
                        omega
                | cons d part =>
                    rw [List.length_cons] at hlength
                    simp only [List.cons_append] at h ⊢
                    split at h
                    next => exact absurd (Prod.mk.inj h).2 Bool.false_ne_true
                    next hnext =>
                      rw [if_neg hnext]
                      have hcount : count + length = count + 2 + part.length := by omega
                      rw [hcount] at h ⊢
                      exact ih part.length (by omega) part rfl h
              next hescape =>
                rw [if_neg hescape]
                have hcount : count + length = count + 1 + part.length := by omega
                rw [hcount] at h ⊢
                exact ih part.length (by omega) part rfl h

/-- What a text block does with one character. -/
theorem textBlockTail_cons (count : Nat) (c : Char) (text : List Char) :
    textBlockTail count (c :: text) =
      if atTripleQuote (c :: text) then (count + 3, true)
      else if c = '\\' then
        match text with
        | [] => (count + 1, false)
        | _ :: text => textBlockTail (count + 2) text
      else textBlockTail (count + 1) text :=
  textBlockTail.eq_def count (c :: text)

/-- A text block that is closed has its closing quotes. -/
theorem lt_textBlockTail {count last : Nat} {text : List Char}
    (h : textBlockTail count text = (last, true)) : count + 3 ≤ last := by
  fun_induction textBlockTail count text with
  | case1 => cases h
  | case2 => cases h; omega
  | case3 => cases h
  | case4 count c text _ ih =>
      have hle := ih h
      omega
  | case5 count c text _ _ ih =>
      have hle := ih h
      omega

/-- Three quotes are found by the first three characters. -/
theorem atTripleQuote_eq (text : List Char) :
    atTripleQuote text = ['"', '"', '"'].isPrefixOf text := by
  unfold atTripleQuote
  split
  · simp
  · rename_i hother
    refine (Bool.eq_false_iff.2 fun hprefix => ?_).symm
    obtain ⟨rest, rfl⟩ := List.isPrefixOf_iff_prefix.1 hprefix
    exact hother rest rfl

/-- With three characters or more in common, two texts show three quotes alike. -/
theorem atTripleQuote_append (part : List Char) (h : 3 ≤ part.length) (text other : List Char) :
    atTripleQuote (part ++ text) = atTripleQuote (part ++ other) := by
  obtain ⟨a, b, c, part, rfl⟩ : ∃ a b c rest, part = a :: b :: c :: rest := by
    match part, h with
    | a :: b :: c :: rest, _ => exact ⟨a, b, c, rest, rfl⟩
  simp [atTripleQuote_eq, List.isPrefixOf]

/-- A text block that is closed reaches as far whatever stands behind it. -/
theorem textBlockTail_append {count : Nat} (part : List Char) {text : List Char}
    (h : textBlockTail count (part ++ text) = (count + part.length, true)) (other : List Char) :
    textBlockTail count (part ++ other) = (count + part.length, true) := by
  generalize hlength : part.length = length at h ⊢
  induction length using Nat.strongRecOn generalizing part count with
  | ind length ih =>
      have hlong := lt_textBlockTail h
      cases part with
      | nil =>
          rw [List.length_nil] at hlength
          omega
      | cons c part =>
          have hquotes : atTripleQuote (c :: (part ++ text)) = atTripleQuote (c :: (part ++ other)) :=
            atTripleQuote_append (c :: part) (by omega) text other
          rw [List.length_cons] at hlength
          rw [List.cons_append, textBlockTail_cons] at h ⊢
          rw [hquotes] at h
          split at h
          next hclose => rw [if_pos hclose, ← h]
          next hclose =>
            rw [if_neg hclose]
            split at h
            next hescape =>
              rw [if_pos hescape]
              cases part with
              | nil =>
                  rw [List.length_nil] at hlength
                  omega
              | cons d part =>
                  rw [List.length_cons] at hlength
                  have hcount : count + length = count + 2 + part.length := by omega
                  rw [hcount] at h ⊢
                  exact ih part.length (by omega) part rfl h
            next hescape =>
              rw [if_neg hescape]
              have hcount : count + length = count + 1 + part.length := by omega
              rw [hcount] at h ⊢
              exact ih part.length (by omega) part rfl h

/-! ### Numbers -/

/-- Whether a character may stand in a number behind another one. -/
def isNumberPart (hex : Bool) (previous c : Char) : Bool :=
  Text.isAsciiAlphanumeric c || c == '_' || c == '.' || isExponentSign hex previous c

/-- What a number does with one character. -/
theorem numberTail_cons (hex : Bool) (previous : Char) (count : Nat) (c : Char) (text : List Char) :
    numberTail hex previous count (c :: text) =
      if isNumberPart hex previous c then
        if c == '.' && text.head? == some '.' then count
        else numberTail hex c (count + 1) text
      else count := rfl

theorem le_numberTail (hex : Bool) (previous : Char) (count : Nat) (text : List Char) :
    count ≤ numberTail hex previous count text := by
  induction text generalizing previous count with
  | nil => exact Nat.le_refl _
  | cons c text ih =>
      have hle := ih c (count + 1)
      rw [numberTail_cons]
      split
      · split
        · exact Nat.le_refl _
        · omega
      · exact Nat.le_refl _

/-- A number reaches as far in front of a text that goes on alike, unless one of two points is cut
off. -/
theorem numberTail_follows (h : Follows text other)
    (hpoints : ['.', '.'] <+: text → other.head? = some '.' → ['.', '.'] <+: other) {hex : Bool}
    {previous : Char} {count : Nat} {part : List Char}
    (hnumber : numberTail hex previous count (part ++ text) = count + part.length) :
    numberTail hex previous count (part ++ other) = count + part.length := by
  induction part generalizing previous count with
  | nil =>
      simp only [List.nil_append, List.length_nil, Nat.add_zero] at hnumber ⊢
      cases h with
      | nil => rfl
      | blank =>
          have hblank : isNumberPart hex previous ' ' = false := by
            have hplain : Text.isAsciiAlphanumeric ' ' = false := by decide
            simp [isNumberPart, isExponentSign, hplain]
          rw [numberTail_cons, hblank, if_neg Bool.false_ne_true]
      | @cons c text other h =>
          rw [numberTail_cons] at hnumber ⊢
          split at hnumber
          next hpart =>
            rw [if_pos hpart]
            split at hnumber
            next hdouble =>
              simp only [Bool.and_eq_true, beq_iff_eq] at hdouble
              obtain ⟨rfl, hhead⟩ := hdouble
              obtain ⟨rest, rfl⟩ := List.head?_eq_some_iff.1 hhead
              obtain ⟨rest', hrest'⟩ := hpoints ⟨rest, rfl⟩ rfl
              rw [if_pos]
              simp [← (List.cons.inj hrest').2]
            next =>
              have hle := le_numberTail hex c (count + 1) text
              omega
          next hpart => rw [if_neg hpart]
  | cons c part ih =>
      rw [List.cons_append, numberTail_cons, List.length_cons] at hnumber ⊢
      split at hnumber
      next hpart =>
        rw [if_pos hpart]
        split at hnumber
        next => omega
        next hsingle =>
          rw [if_neg]
          · have hcount : count + (part.length + 1) = count + 1 + part.length := by omega
            rw [hcount] at hnumber ⊢
            exact ih hnumber
          · simp only [Bool.and_eq_true, beq_iff_eq] at hsingle ⊢
            rintro ⟨rfl, hhead⟩
            exact hsingle ⟨rfl, (h.append part).head_eq (by decide) hhead⟩
      next => omega

/-! ### Words and operators -/

/-- A beginning of a text that is as long as the longest that passes a test, is the longest in front
of a text that goes on alike. -/
theorem takeWhile_follows (h : Follows text other) {test : Char → Bool} (hblank : test ' ' = false)
    {part : List Char} (hword : ((part ++ text).takeWhile test).length = part.length) :
    ((part ++ other).takeWhile test).length = part.length := by
  induction part with
  | nil =>
      have hhead : text.head?.any test = false := by
        cases text with
        | nil => rfl
        | cons c text =>
            refine Bool.eq_false_iff.2 fun hc => ?_
            rw [List.head?_cons, Option.any_some] at hc
            simp [hc] at hword
      have hother := h.head_any hblank hhead
      cases other with
      | nil => rfl
      | cons c other =>
          rw [List.head?_cons, Option.any_some] at hother
          simp [hother]
  | cons c part ih =>
      rw [List.cons_append, List.takeWhile_cons] at hword ⊢
      split at hword
      next hc =>
        rw [if_pos hc]
        rw [List.length_cons, List.length_cons] at hword ⊢
        rw [ih (Nat.succ.inj hword)]
      next => cases hword

/-- The operators in the order in which they are tried; closing angle brackets come first. -/
def triedOperators : List String := ">=" :: ">" :: operators

theorem operatorAt?_eq (text : List Char) :
    operatorAt? text = triedOperators.find? fun op => op.toList.isPrefixOf text := by
  have hpair : ">=".toList = ['>', '='] := rfl
  have hone : ">".toList = ['>'] := rfl
  rw [triedOperators, List.find?_cons, List.find?_cons, hpair, hone]
  unfold operatorAt?
  split
  next rest => simp
  next rest hne =>
    have hsingle : ['>', '='].isPrefixOf ('>' :: rest) = false := by
      refine Bool.eq_false_iff.2 fun h => ?_
      obtain ⟨later, hlater⟩ := List.isPrefixOf_iff_prefix.1 h
      exact hne later (List.cons.inj hlater).2.symm
    simp [hsingle]
  next hpair hone =>
    have hother : ['>'].isPrefixOf text = false := by
      refine Bool.eq_false_iff.2 fun h => ?_
      obtain ⟨later, rfl⟩ := List.isPrefixOf_iff_prefix.1 h
      exact hone later rfl
    have hother' : ['>', '='].isPrefixOf text = false := by
      refine Bool.eq_false_iff.2 fun h => ?_
      obtain ⟨later, rfl⟩ := List.isPrefixOf_iff_prefix.1 h
      exact hpair later rfl
    rw [hother, hother']

theorem plain_triedOperators : ∀ op ∈ triedOperators, ' ' ∉ op.toList ∧ op.toList ≠ [] := by
  decide +kernel

/-- The same operator stands at the head of a text that begins with it and then goes on alike. -/
theorem operatorAt?_follows (h : Follows text other) {op : String}
    (htext : operatorAt? (op.toList ++ text) = some op) :
    operatorAt? (op.toList ++ other) = some op := by
  rw [operatorAt?_eq] at htext ⊢
  obtain ⟨-, earlier, later, hsplit, hearlier⟩ := List.find?_eq_some_iff_append.1 htext
  refine List.find?_eq_some_iff_append.2 ⟨by simp, earlier, later, hsplit, fun op' hop' => ?_⟩
  have hnot := hearlier op' hop'
  rw [Bool.not_eq_true'] at hnot ⊢
  -- An operator that is tried earlier and fits here would have fitted there.
  refine Bool.eq_false_iff.2 fun hfits => Bool.eq_false_iff.1 hnot ?_
  have hplain := (plain_triedOperators op' (by rw [hsplit]; exact List.mem_append_left _ hop')).1
  exact List.isPrefixOf_iff_prefix.2
    ((h.append op.toList).isPrefix hplain (List.isPrefixOf_iff_prefix.1 hfits))

/-- The operator at the head of a text stands there, and it has characters. -/
theorem operatorAt?_eq_some {op : String} (h : operatorAt? text = some op) :
    op.toList <+: text ∧ op.toList ≠ [] := by
  rw [operatorAt?_eq] at h
  exact ⟨List.isPrefixOf_iff_prefix.1 (by simpa using List.find?_some h),
    (plain_triedOperators op (List.mem_of_find?_eq_some h)).2⟩

/-! ### The token at the head -/

/-- A number goes on with a letter or a digit. -/
theorem lt_numberTail (hex : Bool) (previous : Char) {c : Char} {text : List Char}
    (hc : Text.isAsciiAlphanumeric c = true) (hhead : text.head? = some c) :
    0 < numberTail hex previous 0 text := by
  obtain ⟨text, rfl⟩ := List.head?_eq_some_iff.1 hhead
  have hpoint : c ≠ '.' := by
    rintro rfl
    exact absurd hc (by decide)
  have hle := le_numberTail hex c (0 + 1) text
  rw [numberTail_cons, if_pos (by simp [isNumberPart, hc]), if_neg (by simp [hpoint])]
  omega

/-- Whether a number is hexadecimal is told by a character that belongs to it. -/
theorem atHexMark_follows (h : Follows text other) {c : Char} {part : List Char}
    (hnumber : numberTail (atHexMark (c :: (part ++ text))) c 0 (part ++ text) = part.length) :
    atHexMark (c :: (part ++ other)) = atHexMark (c :: (part ++ text)) := by
  have hmark (d : Char) (rest : List Char) :
      atHexMark (c :: d :: rest) = (c == '0' && (d == 'x' || d == 'X')) := by
    by_cases hc : c = '0'
    · subst hc
      rfl
    · simp [atHexMark, hc]
  cases part with
  | cons d part => rw [List.cons_append, List.cons_append, hmark, hmark]
  | nil =>
      rw [List.nil_append, List.nil_append] at *
      have hfalse : atHexMark (c :: text) = false := by
        refine Bool.eq_false_iff.2 fun htrue => ?_
        cases text with
        | nil => simp [atHexMark] at htrue
        | cons d text =>
            rw [hmark] at htrue
            have hletter : Text.isAsciiAlphanumeric d = true := by
              simp only [Bool.and_eq_true, Bool.or_eq_true, beq_iff_eq] at htrue
              rcases htrue.2 with rfl | rfl <;> decide
            have hhead : (d :: text).head? = some d := rfl
            have hlt := lt_numberTail (atHexMark (c :: d :: text)) c hletter hhead
            rw [hnumber] at hlt
            exact Nat.lt_irrefl _ hlt
      rw [hfalse]
      refine Bool.eq_false_iff.2 fun htrue => Bool.eq_false_iff.1 hfalse ?_
      cases other with
      | nil => simp [atHexMark] at htrue
      | cons d other =>
          rw [hmark] at htrue
          have hd : d ≠ ' ' := by
            rintro rfl
            simp at htrue
          obtain ⟨text, rfl⟩ := List.head?_eq_some_iff.1 (h.head_eq hd rfl)
          rw [hmark, htrue]

/-- The string that reaches so far. -/
def stringOf (tail : Nat × Bool) : Lexeme := ⟨.string tail.2, tail.1⟩

/-- A string that is closed reaches as far in front of a text that goes on alike. -/
theorem string_follows (h : Follows text other) {part : List Char} {closed : Bool}
    (hclosed : closed = true)
    (htext : (if atTripleQuote ('"' :: (part ++ text)) then textBlockTail 2 ((part ++ text).drop 2)
      else quotedTail '"' 0 (part ++ text)) = (part.length, closed)) :
    (if atTripleQuote ('"' :: (part ++ other)) then textBlockTail 2 ((part ++ other).drop 2)
      else quotedTail '"' 0 (part ++ other)) = (part.length, closed) := by
  subst hclosed
  split at htext
  next hblock =>
    have hlong := lt_textBlockTail htext
    have hquotes : atTripleQuote ('"' :: (part ++ text)) = atTripleQuote ('"' :: (part ++ other)) :=
      atTripleQuote_append ('"' :: part) (by rw [List.length_cons]; omega) text other
    rw [hquotes] at hblock
    rw [if_pos hblock]
    obtain ⟨a, b, part, rfl⟩ : ∃ a b rest, part = a :: b :: rest := by
      match part, hlong with
      | a :: b :: rest, _ => exact ⟨a, b, rest, rfl⟩
    have hlength : (a :: b :: part).length = 2 + part.length := by
      simp only [List.length_cons]
      omega
    rw [hlength] at htext ⊢
    exact textBlockTail_append part htext other
  next hblock =>
    have hplain : ¬ atTripleQuote ('"' :: (part ++ other)) = true := by
      rw [atTripleQuote_eq, List.isPrefixOf_iff_prefix] at hblock ⊢
      exact fun hother => hblock ((h.append part).cons.isPrefix (by decide) hother)
    rw [if_neg hplain]
    have hlength : part.length = 0 + part.length := (Nat.zero_add _).symm
    rw [hlength] at htext ⊢
    exact quotedTail_append part htext other

/-- The operator at the head of two texts that begin with it and then go on alike. -/
theorem operator_follows (h : Follows text other) {c : Char} {part : List Char} {op : String}
    (htext : operatorAt? (c :: (part ++ text)) = some op) (hlength : op.length - 1 = part.length) :
    operatorAt? (c :: (part ++ other)) = some op := by
  obtain ⟨⟨rest, hrest⟩, hne⟩ := operatorAt?_eq_some htext
  have hop : op.toList = c :: part := by
    have hpos : 0 < op.toList.length := List.length_pos_iff.2 hne
    have hsame : op.toList.length = (c :: part).length := by
      rw [String.length_toList] at hpos ⊢
      rw [List.length_cons]
      omega
    exact (List.append_inj (hrest.trans (List.cons_append ..).symm) hsame).1
  rw [← List.cons_append, ← hop] at htext ⊢
  exact operatorAt?_follows h htext

/-- **The same token stands at the head of two texts** that begin with it and then go on alike, unless
it is a number in front of two points of which one is cut off. -/
theorem atHead_follows (h : Follows text other) {c : Char} {part : List Char} {kind : Kind}
    (hkind : kind.isWhole = true)
    (hpoints : kind = .number → ['.', '.'] <+: text → other.head? = some '.' →
      ['.', '.'] <+: other)
    (htext : atHead c (part ++ text) = ⟨kind, part.length⟩) :
    atHead c (part ++ other) = ⟨kind, part.length⟩ := by
  have hfollows := h.append part
  unfold atHead at htext ⊢
  by_cases hblank : Text.isBlank c = true
  · rw [if_pos hblank] at htext
    obtain ⟨rfl, -⟩ := Lexeme.mk.inj htext
    cases hkind
  rw [if_neg hblank] at htext ⊢
  by_cases hline : c = '/' ∧ (part ++ text).head? = some '/'
  · rw [if_pos hline] at htext
    obtain ⟨rfl, -⟩ := Lexeme.mk.inj htext
    cases hkind
  rw [if_neg hline] at htext
  rw [if_neg fun hother => hline ⟨hother.1, hfollows.head_eq (by decide) hother.2⟩]
  by_cases hcomment : c = '/' ∧ (part ++ text).head? = some '*'
  · rw [if_pos hcomment] at htext
    obtain ⟨rfl, -⟩ := Lexeme.mk.inj htext
    cases hkind
  rw [if_neg hcomment] at htext
  rw [if_neg fun hother => hcomment ⟨hother.1, hfollows.head_eq (by decide) hother.2⟩]
  by_cases hstring : c = '"'
  · subst hstring
    change (if _ then stringOf _ else stringOf _) = _ at htext
    change (if _ then stringOf _ else stringOf _) = _
    rw [← apply_ite stringOf] at htext ⊢
    obtain ⟨rfl, hextra⟩ := Lexeme.mk.inj htext
    rw [string_follows h hkind (Prod.ext hextra rfl)]
    rfl
  rw [if_neg hstring] at htext ⊢
  by_cases hcharacter : c = '\x27'
  · rw [if_pos hcharacter] at htext ⊢
    obtain ⟨rfl, hextra⟩ := Lexeme.mk.inj htext
    have htail : quotedTail '\x27' 0 (part ++ text) = (0 + part.length, true) :=
      Prod.ext (hextra.trans (Nat.zero_add _).symm) hkind
    simp only [quotedTail_append part htail other, htail, Nat.zero_add]
  rw [if_neg hcharacter] at htext ⊢
  by_cases hnumber : (Text.isAsciiDigit c ||
      (c == '.' && (part ++ text).head?.any Text.isAsciiDigit)) = true
  · rw [if_pos hnumber] at htext
    obtain ⟨rfl, hextra⟩ := Lexeme.mk.inj htext
    have hother : (Text.isAsciiDigit c ||
        (c == '.' && (part ++ other).head?.any Text.isAsciiDigit)) = true := by
      cases part with
      | cons d part => exact hnumber
      | nil =>
          -- A point in front of a digit takes the digit along.
          simp only [Bool.or_eq_true, Bool.and_eq_true, Option.any_eq_true] at hnumber ⊢
          refine .inl (hnumber.resolve_right ?_)
          rintro ⟨-, d, hhead, hdigit⟩
          have hlt := lt_numberTail (atHexMark (c :: ([] ++ text))) c
            (by simp [Text.isAsciiAlphanumeric, hdigit]) hhead
          exact absurd hextra (Nat.ne_of_gt hlt)
    rw [if_pos hother, atHexMark_follows h hextra]
    rw [← Nat.zero_add part.length] at hextra ⊢
    rw [numberTail_follows h (hpoints rfl) hextra]
  rw [if_neg hnumber] at htext
  have hother : ¬ (Text.isAsciiDigit c ||
      (c == '.' && (part ++ other).head?.any Text.isAsciiDigit)) = true := by
    simp only [Bool.or_eq_true, Bool.and_eq_true, not_or, not_and, Bool.not_eq_true] at hnumber ⊢
    exact ⟨hnumber.1, fun hc => hfollows.head_any (by decide) (hnumber.2 hc)⟩
  rw [if_neg hother]
  by_cases hword : isWordStart c = true
  · rw [if_pos hword] at htext ⊢
    obtain ⟨rfl, hextra⟩ := Lexeme.mk.inj htext
    rw [takeWhile_follows h (by decide) hextra]
  rw [if_neg hword] at htext ⊢
  cases hop : operatorAt? (c :: (part ++ text)) with
  | none =>
      rw [hop] at htext
      obtain ⟨rfl, -⟩ := Lexeme.mk.inj htext
      cases hkind
  | some op =>
      rw [hop] at htext
      obtain ⟨rfl, hextra⟩ := Lexeme.mk.inj htext
      rw [operator_follows h hop hextra]
      exact htext

/-! ### Tokens lie in their texts -/

theorem quotedTail_le (quote : Char) (count : Nat) (text : List Char) :
    (quotedTail quote count text).1 ≤ count + text.length := by
  fun_induction quotedTail quote count text <;> simp_all <;> omega

theorem textBlockTail_le (count : Nat) (text : List Char) :
    (textBlockTail count text).1 ≤ count + text.length := by
  fun_induction textBlockTail count text with
  | case1 => simp
  | case2 count c text hquotes =>
      rw [atTripleQuote_eq] at hquotes
      have hle := (List.isPrefixOf_iff_prefix.1 hquotes).length_le
      simp only [List.length_cons, List.length_nil] at hle ⊢
      omega
  | case3 => simp
  | case4 count c text _ ih =>
      simp only [List.length_cons]
      omega
  | case5 count c text _ _ ih =>
      simp only [List.length_cons]
      omega

theorem numberTail_le (hex : Bool) (previous : Char) (count : Nat) (text : List Char) :
    numberTail hex previous count text ≤ count + text.length := by
  induction text generalizing previous count with
  | nil => exact Nat.le_refl _
  | cons c text ih =>
      have hle := ih c (count + 1)
      rw [numberTail_cons, List.length_cons]
      split
      · split <;> omega
      · omega

/-- A token lies in its text. -/
theorem extra_atHead_le {c : Char} {text : List Char}
    (h : (atHead c text).kind.isWhole = true) : (atHead c text).extra ≤ text.length := by
  unfold atHead at h ⊢
  split at h
  next => cases h
  split at h
  next => cases h
  split at h
  next => cases h
  next hblank hline hcomment =>
  rw [if_neg hblank, if_neg hline, if_neg hcomment]
  split
  · split
    next hblock =>
      have hle := textBlockTail_le 2 (text.drop 2)
      have hlong := (List.isPrefixOf_iff_prefix.1 (atTripleQuote_eq (c :: text) ▸ hblock)).length_le
      simp only [List.length_drop, List.length_cons, List.length_nil] at hle hlong ⊢
      omega
    next =>
      have hle := quotedTail_le '"' 0 text
      rwa [Nat.zero_add] at hle
  split
  · have hle := quotedTail_le '\x27' 0 text
    rwa [Nat.zero_add] at hle
  split
  · have hle := numberTail_le (atHexMark (c :: text)) c 0 text
    rwa [Nat.zero_add] at hle
  split
  · exact (List.takeWhile_sublist _).length_le
  split
  next op hop =>
    have hle := (operatorAt?_eq_some hop).1.length_le
    rw [String.length_toList, List.length_cons] at hle
    exact Nat.sub_le_of_le_add hle
  next => exact Nat.zero_le _

end Lexeme

end JavaOutline
