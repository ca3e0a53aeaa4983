/-
**Texts with commas between them.**

Types are written with commas between them, and the text of a type may have commas of its own.  These
stand in groups: in the type arguments, or in the arguments of an annotation.  Where nothing is wrong
with the source, the text of such tokens can be read again, so it does not go on with a comma and become
another such text.  So a list of these texts is told by what stands between the commas.

Main definitions:

* `Unsplit` — no comma stands outside of the groups of some tokens;
* `UnsplitText` — a text that is written with such tokens of a source.

Main results:

* `Unsplit.not_continued` — what is written for such tokens is not what is written for others, with a
  comma and more behind it;
* `UnsplitText.intercalate_inj` — **a list of such texts is told by the texts with commas between
  them**;
* `Lexed.word_of_isIdentifier` — identifiers are made of letters and digits.
-/

import JavaOutline.Proofs.CapturedExpressions
import JavaOutline.Proofs.PairedBrackets

set_option autoImplicit false

namespace JavaOutline

open JavaOutline.Parser

open Token (joinFrom)

open Text (AtComma)

/-! ### Groups -/

/-- The brackets of the group that a token begins where a type is written. -/
def Token.group? (t : Token) : Option (String × String) :=
  if t.is "<" then some ("<", ">") else if t.is "(" then some ("(", ")") else none

/-- The closer of a group is found whatever stands behind it. -/
theorem groupLength?_append {opener closer : String} {depth n : Nat} {tokens : List Token}
    (h : groupLength? opener closer depth tokens = some n) (more : List Token) :
    groupLength? opener closer depth (tokens ++ more) = some n := by
  fun_induction groupLength? opener closer depth tokens generalizing n with
  | case1 => cases h
  | case2 depth t ts hopens ih =>
      obtain ⟨m, hm, rfl⟩ := Option.map_eq_some_iff.1 h
      simp only [List.cons_append, groupLength?, if_pos hopens, ih hm, Option.map_some]
  | case3 t ts hopens hcloses =>
      simp only [List.cons_append, groupLength?, if_neg hopens, if_pos hcloses, h]
  | case4 t ts hopens hcloses depth ih =>
      obtain ⟨m, hm, rfl⟩ := Option.map_eq_some_iff.1 h
      simp only [List.cons_append, groupLength?, if_neg hopens, if_pos hcloses, ih hm, Option.map_some]
  | case5 depth t ts hopens hcloses ih =>
      obtain ⟨m, hm, rfl⟩ := Option.map_eq_some_iff.1 h
      rw [List.cons_append, groupLength?.eq_def]
      simp only [if_neg hopens, if_neg hcloses, ih hm, Option.map_some]

/-- The closer of a group is found without the places of the tokens. -/
theorem groupLength?_bare (opener closer : String) (depth : Nat) (tokens : List Token) :
    groupLength? opener closer depth (tokens.map Token.bare) =
      groupLength? opener closer depth tokens := by
  induction tokens generalizing depth with
  | nil => rfl
  | cons t tokens ih =>
      have hsame (text : String) : t.bare.is text = t.is text := rfl
      cases depth with
      | zero => simp only [List.map_cons, groupLength?, hsame, ih]
      | succ depth => simp only [List.map_cons, groupLength?, hsame, ih]

/-- No comma stands outside of the groups. -/
inductive Unsplit : List Token → Prop
  | nil : Unsplit []
  | plain {t : Token} {ts : List Token} (hgroup : t.group? = none) (hcomma : t.is "," = false)
      (later : Unsplit ts) : Unsplit (t :: ts)
  | group {t : Token} {ts : List Token} {opener closer : String} {n : Nat}
      (hgroup : t.group? = some (opener, closer)) (hlength : groupLength? opener closer 0 ts = some n)
      (later : Unsplit (ts.drop n)) : Unsplit (t :: ts)

namespace Unsplit

variable {ts us : List Token}

theorem append (h : Unsplit ts) (h' : Unsplit us) : Unsplit (ts ++ us) := by
  induction h with
  | nil => exact h'
  | plain hgroup hcomma _ ih => exact .plain hgroup hcomma ih
  | group hgroup hlength _ ih =>
      rw [← List.drop_append_of_le_length (groupLength?_pos hlength).2] at ih
      exact .group hgroup (groupLength?_append hlength us) ih

/-- A group has no comma outside. -/
theorem of_group {opener closer : String} (hpair : ∀ t : Token, t.is opener = true →
    t.group? = some (opener, closer)) (h : Group opener closer ts) : Unsplit ts := by
  cases ts with
  | nil => cases h
  | cons t ts =>
      obtain ⟨ht, hlength⟩ := h
      refine .group (hpair t ht) hlength ?_
      rw [List.drop_length]
      exact .nil

/-- Whether a comma stands outside does not depend on where the tokens stand. -/
theorem bare (h : Unsplit ts) : Unsplit (ts.map Token.bare) := by
  induction h with
  | nil => exact .nil
  | plain hgroup hcomma _ ih => exact .plain hgroup hcomma ih
  | group hgroup hlength _ ih =>
      refine .group hgroup ((groupLength?_bare _ _ 0 _).trans hlength) ?_
      rwa [← List.map_drop]

/-- A comma behind tokens all of whose commas stand in groups stands in none. -/
theorem not_comma (h : Unsplit ts) {comma : Token} (hcomma : comma.is "," = true) :
    ¬ Unsplit (ts ++ comma :: us) := by
  induction h with
  | nil =>
      have hgroup : comma.group? = none := by
        simp [Token.group?, Token.is_of_is hcomma (by decide : "<" ≠ ","),
          Token.is_of_is hcomma (by decide : "(" ≠ ",")]
      rintro (_ | ⟨-, hplain, -⟩ | ⟨hopens, -, -⟩)
      · rw [hcomma] at hplain
        cases hplain
      · rw [hgroup] at hopens
        cases hopens
  | plain hgroup _ _ ih =>
      rintro (_ | ⟨-, -, hlater⟩ | ⟨hopens, -, -⟩)
      · exact ih hlater
      · rw [hgroup] at hopens
        cases hopens
  | group hgroup hlength _ ih =>
      rintro (_ | ⟨hplain, -, -⟩ | ⟨hopens, hlength', hlater⟩)
      · rw [hgroup] at hplain
        cases hplain
      · obtain ⟨rfl, rfl⟩ := Prod.mk.inj (Option.some.inj (hgroup.symm.trans hopens))
        obtain rfl := Option.some.inj ((groupLength?_append hlength _).symm.trans hlength')
        rw [← List.drop_append_of_le_length (groupLength?_pos hlength).2] at ih
        exact ih hlater

end Unsplit

/-! ### Tokens that a comma follows -/

/-- A comma is a token by itself. -/
theorem Scan.ofChars_comma (p : Position) (text : List Char) :
    ∃ comma later, (ofChars p (',' :: text)).tokens = comma :: later ∧ comma.is "," = true := by
  have hlexeme : Lexeme.atHead ',' ([] ++ text) = ⟨.operator, ([] : List Char).length⟩ := by
    rfl
  obtain ⟨span, -, htokens, -⟩ := ofChars_token p (t := ⟨.operator, ",", {}⟩) hlexeme rfl rfl rfl
  exact ⟨_, _, htokens, by rfl⟩

section

variable {offset offset' : Nat} {text text' : List Char} {ts ts' after after' : List Token}

/-- **What is written for tokens without a comma outside of their groups is not what is written for
others, with a comma and more behind it.** -/
theorem Unsplit.not_continued (h : Unsplit ts) (h' : Unsplit ts') (hlexed : Lexed offset text (ts ++ after))
    (hlexed' : Lexed offset' text' (ts' ++ after')) (hcut : CutPlain ts after)
    (hcut' : CutPlain ts' after') (more : List Char) :
    (joinFrom offset' ts').toList ≠ (joinFrom offset ts).toList ++ ',' :: more := by
  intro heq
  have hcomma : AtComma (',' :: more) := fun c hc => (Option.some.inj hc).symm
  obtain ⟨again, q, hretold, htokens, -⟩ := relex_joinFrom_atComma hlexed hcut hcomma Position.start
    (.inl ⟨rfl, rfl⟩)
  obtain ⟨-, hretold'⟩ := relex_joinFrom hlexed' hcut' Position.start (.inl ⟨rfl, rfl⟩)
  obtain ⟨comma, later, hlater, his⟩ := Scan.ofChars_comma q more
  -- Read again, the second tokens are the first ones, a comma and some more.
  have hsame : ts'.map Token.bare = ts.map Token.bare ++ comma.bare :: later.map Token.bare := by
    rw [hretold'.map_bare, heq, htokens, hlater, hretold.map_bare, List.map_append, List.map_cons]
  have hunsplit := h'.bare
  rw [hsame] at hunsplit
  have hcomma : comma.bare.is "," = true := his
  exact h.bare.not_comma hcomma hunsplit

end

/-! ### Texts with commas between them -/

/-- Texts with a comma in front of each. -/
def commaTexts (texts : List String) : List Char := texts.flatMap fun text => ',' :: text.toList

theorem commaTexts_cons (text : String) (later : List String) :
    commaTexts (text :: later) = ',' :: (text.toList ++ commaTexts later) := by
  rw [commaTexts, List.flatMap_cons, List.cons_append]
  rfl

theorem atComma_commaTexts (texts : List String) : AtComma (commaTexts texts) := by
  intro c hc
  cases texts with
  | nil => cases hc
  | cons text later => exact (Option.some.inj hc).symm

/-- The first of some texts, and the others with a comma in front of each. -/
theorem toList_intercalate_cons (text : String) (later : List String) :
    (",".intercalate (text :: later)).toList = text.toList ++ commaTexts later := by
  induction later generalizing text with
  | nil =>
      rw [String.intercalate_singleton]
      exact (List.append_nil _).symm
  | cons next later ih =>
      rw [String.intercalate_cons_cons, String.toList_append, String.toList_append, ih,
        commaTexts_cons, List.append_assoc]
      rfl

/-! ### Texts of tokens -/

/-- A text that is written with tokens of a source, no comma being outside of their groups. -/
def UnsplitText (tokens : List Token) (text : String) : Prop :=
  ∃ front part after, tokens = front ++ (part ++ after) ∧ part ≠ [] ∧ Unsplit part ∧
    CutPlain part after ∧ text = Token.join part

namespace UnsplitText

variable {offset : Nat} {source : List Char} {tokens : List Token} {a b : String}

/-- The tokens of such a text, in a text that begins with the first of them. -/
theorem lexed (h : UnsplitText tokens a) (hlexed : Lexed offset source tokens) :
    ∃ offset text part after, Lexed offset text (part ++ after) ∧ part ≠ [] ∧ Unsplit part ∧
      CutPlain part after ∧ a = joinFrom offset part := by
  obtain ⟨front, part, after, rfl, hne, hunsplit, hcut, rfl⟩ := h
  obtain ⟨_, _, hbehind⟩ := hlexed.drop front
  obtain ⟨t, part, rfl⟩ := List.exists_cons_of_ne_nil hne
  obtain ⟨text, hanchored⟩ := hbehind.anchored
  exact ⟨_, text, t :: part, after, hanchored, hne, hunsplit, hcut, Token.join_eq_joinFrom t part⟩

theorem ne_empty (h : UnsplitText tokens a) (hlexed : Lexed offset source tokens) : a ≠ "" := by
  rintro rfl
  obtain ⟨offset, text, part, after, hpart, hne, -, -, hempty⟩ := h.lexed hlexed
  obtain ⟨t, part, rfl⟩ := List.exists_cons_of_ne_nil hne
  cases hpart with
  | cons _ _ _ _ htext _ _ =>
      have hnil := congrArg String.toList hempty
      rw [joinFrom, String.toList_append, String.toList_append, htext] at hnil
      simp at hnil

theorem not_continued (h : UnsplitText tokens a) (h' : UnsplitText tokens b)
    (hlexed : Lexed offset source tokens) (more : List Char) :
    b.toList ≠ a.toList ++ ',' :: more := by
  obtain ⟨_, _, _, _, hpart, -, hunsplit, hcut, rfl⟩ := h.lexed hlexed
  obtain ⟨_, _, _, _, hpart', -, hunsplit', hcut', rfl⟩ := h'.lexed hlexed
  exact hunsplit.not_continued hunsplit' hpart hpart' hcut hcut' more

/-- Of two such texts in front of commas that are the same, each is the other. -/
theorem eq_of_append (h : UnsplitText tokens a) (h' : UnsplitText tokens b)
    (hlexed : Lexed offset source tokens) {behind behind' : List Char} (hbehind : AtComma behind)
    (hbehind' : AtComma behind') (heq : a.toList ++ behind = b.toList ++ behind') :
    a = b ∧ behind = behind' := by
  rcases List.append_eq_append_iff.1 heq with ⟨more, hb, hmore⟩ | ⟨more, ha, hmore⟩
  · cases more with
    | nil => exact ⟨String.toList_inj.1 (by simpa using hb.symm), by simpa using hmore⟩
    | cons c more =>
        obtain rfl := hbehind c (by rw [hmore]; rfl)
        exact absurd hb (h.not_continued h' hlexed more)
  · cases more with
    | nil => exact ⟨String.toList_inj.1 (by simpa using ha), by simpa using hmore.symm⟩
    | cons c more =>
        obtain rfl := hbehind' c (by rw [hmore]; rfl)
        exact absurd ha (h'.not_continued h hlexed more)

/-- A list of such texts is told by the texts with a comma in front of each. -/
theorem commaTexts_inj (hlexed : Lexed offset source tokens) {as bs : List String}
    (has : ∀ a ∈ as, UnsplitText tokens a) (hbs : ∀ b ∈ bs, UnsplitText tokens b)
    (heq : commaTexts as = commaTexts bs) : as = bs := by
  induction as generalizing bs with
  | nil =>
      cases bs with
      | nil => rfl
      | cons b bs => cases heq
  | cons a as ih =>
      cases bs with
      | nil => cases heq
      | cons b bs =>
          obtain ⟨rfl, hlater⟩ := (has a List.mem_cons_self).eq_of_append (hbs b List.mem_cons_self)
            hlexed (atComma_commaTexts as) (atComma_commaTexts bs) (List.cons.inj heq).2
          rw [ih (fun a ha => has a (List.mem_cons_of_mem _ ha))
            (fun b hb => hbs b (List.mem_cons_of_mem _ hb)) hlater]

/-- **A list of such texts is told by the texts with commas between them.** -/
theorem intercalate_inj (hlexed : Lexed offset source tokens) {as bs : List String}
    (has : ∀ a ∈ as, UnsplitText tokens a) (hbs : ∀ b ∈ bs, UnsplitText tokens b)
    (heq : ",".intercalate as = ",".intercalate bs) : as = bs := by
  have hempty {a : String} {later : List String} (ha : UnsplitText tokens a) :
      "" ≠ ",".intercalate (a :: later) := by
    intro h
    have htext := toList_intercalate_cons a later
    rw [← h] at htext
    exact ha.ne_empty hlexed (String.toList_inj.1 (List.append_eq_nil_iff.1 htext.symm).1)
  cases as with
  | nil =>
      cases bs with
      | nil => rfl
      | cons b bs => exact absurd heq (hempty (hbs b List.mem_cons_self))
  | cons a as =>
      cases bs with
      | nil => exact absurd heq.symm (hempty (has a List.mem_cons_self))
      | cons b bs =>
          refine commaTexts_inj hlexed has hbs ?_
          rw [commaTexts_cons, commaTexts_cons, ← toList_intercalate_cons, heq,
            toList_intercalate_cons]

end UnsplitText

/-! ### Identifiers -/

/-- A lexeme that is an identifier is a word. -/
theorem Lexeme.kind_of_identifier {kind : Lexeme.Kind} {text : List Char}
    (h : tokenKind? kind text = some .identifier) : kind = .word := by
  cases kind <;> first | rfl | cases h

/-- A word is made of letters and digits. -/
theorem Lexeme.isWordPart_of_word {c : Char} {part text : List Char}
    (h : atHead c (part ++ text) = ⟨.word, part.length⟩) :
    isWordStart c = true ∧ ∀ d ∈ part, isWordPart d = true := by
  unfold atHead at h
  split at h
  · cases (Lexeme.mk.inj h).1
  split at h
  · cases (Lexeme.mk.inj h).1
  split at h
  · cases (Lexeme.mk.inj h).1
  split at h
  · split at h <;> cases (Lexeme.mk.inj h).1
  split at h
  · cases (Lexeme.mk.inj h).1
  split at h
  · cases (Lexeme.mk.inj h).1
  split at h
  next hstart =>
    refine ⟨hstart, fun d hd => ?_⟩
    have hlength : ((part ++ text).takeWhile isWordPart).length = part.length := (Lexeme.mk.inj h).2
    have hpart : (part ++ text).takeWhile isWordPart = part :=
      (List.prefix_of_prefix_length_le (List.takeWhile_prefix _) (List.prefix_append _ _)
        (Nat.le_of_eq hlength)).eq_of_length hlength
    rw [← hpart] at hd
    exact List.all_eq_true.1 List.all_takeWhile d hd
  · split at h <;> cases (Lexeme.mk.inj h).1

/-- **Identifiers are made of letters and digits.** -/
theorem Lexed.word_of_isIdentifier {offset : Nat} {text : List Char} {tokens : List Token}
    (h : Lexed offset text tokens) {t : Token} (ht : t ∈ tokens) (hname : t.isIdentifier = true) :
    ∀ c ∈ t.text.toList, Lexeme.isWordStart c = true ∨ Lexeme.isWordPart c = true := by
  induction h with
  | nil => cases ht
  | @cons _ gap part rest c kind u later _ hlexeme _ hkind htext _ _ ih =>
      rcases List.mem_cons.1 ht with rfl | hlater
      · rw [beq_iff_eq.1 hname] at hkind
        obtain rfl := Lexeme.kind_of_identifier hkind
        obtain ⟨hstart, hparts⟩ := Lexeme.isWordPart_of_word hlexeme
        intro d hd
        rw [htext] at hd
        rcases List.mem_cons.1 hd with rfl | hd
        · exact .inl hstart
        · exact .inr (hparts d hd)
      · exact ih hlater

end JavaOutline
