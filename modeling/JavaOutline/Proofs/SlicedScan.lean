/-
**Scanning what lies between two braces.**

A body that was passed over is scanned again by itself, from its opening brace up to its closing one.
Nothing that is cut off could have changed how the text in front of a closing brace is taken apart: a
brace belongs to no longer lexeme, and what runs across it, a comment or a text block that is never
closed, runs to the end of the text and leaves no brace to stop at.  So what lies between two braces
is found again, tokens, line separators and errors with their places, whatever else is wrong with the
source.

Main definitions:

* `PartedAt` — the pieces of a source in front of a part, inside and behind it.

Main results:

* `Lexeme.atHead_cut` — **a lexeme in front of a brace does not see what is behind the brace**;
* `pieces_drop`, `pieces_cut` — the pieces from one on, and those up to a brace;
* `Scan.ofRange_pieces` — a part up to a brace has the pieces of the source that lie in it;
* `Scan.tokens_ofRange` — **the tokens between two braces are found again**;
* `Scan.ofRange_braces` — **a part between two braces is scanned as it is in the whole source**.
-/

import Mathlib.Data.List.Basic
import JavaOutline.Proofs.Relexing
import JavaOutline.Token.Range

set_option autoImplicit false

namespace JavaOutline

open Text (Follows)

namespace Lexeme

/-! ### How far lexemes reach in front of a character -/

/-- What a comment does with one character. -/
theorem commentTail_cons (count : Nat) (c : Char) (text : List Char) :
    commentTail count (c :: text) =
      if c = '*' ∧ text.head? = some '/' then (count + 2, true)
      else commentTail (count + 1) text := by
  split
  next h =>
    obtain ⟨rfl, hhead⟩ := h
    obtain ⟨text, rfl⟩ := List.head?_eq_some_iff.1 hhead
    rfl
  next h =>
    rw [commentTail]
    rintro text' rfl rfl
    exact h ⟨rfl, rfl⟩

theorem le_commentTail (count : Nat) (text : List Char) : count ≤ (commentTail count text).1 := by
  induction text generalizing count with
  | nil => exact Nat.le_refl _
  | cons c text ih =>
      have hle := ih (count + 1)
      rw [commentTail_cons]
      split
      · simp only; omega
      · omega

/-- A comment that ends in front of a character ends there whatever stands behind the character. -/
theorem commentTail_stop {count : Nat} (part : List Char) {d : Char} {text : List Char}
    {closed : Bool} (h : commentTail count (part ++ d :: text) = (count + part.length, closed))
    (other : List Char) :
    commentTail count (part ++ d :: other) = (count + part.length, closed) := by
  induction part generalizing count with
  | nil =>
      -- A comment that goes on takes the character.
      have hle := le_commentTail (count + 1) text
      rw [List.nil_append, commentTail_cons] at h
      split at h
      · simp at h
      · rw [h, List.length_nil] at hle
        omega
  | cons c part ih =>
      have hhead : ∀ text : List Char, (part ++ d :: text).head? = (part ++ [d]).head? := by
        intro text
        cases part <;> rfl
      rw [List.cons_append, commentTail_cons, hhead] at h ⊢
      split at h
      next hclose => rw [if_pos hclose, h]
      next hclose =>
        have hcount : count + (c :: part).length = count + 1 + part.length := by
          rw [List.length_cons]
          omega
        rw [if_neg hclose]
        rw [hcount] at h ⊢
        exact ih h

theorem le_quotedTail (quote : Char) (count : Nat) (text : List Char) :
    count ≤ (quotedTail quote count text).1 := by
  fun_induction quotedTail quote count text <;> simp_all <;> omega

/-- A literal that ends in front of a character ends there whatever stands behind the character. -/
theorem quotedTail_stop {quote : Char} {count : Nat} (part : List Char) {d : Char}
    {text : List Char} {closed : Bool}
    (h : quotedTail quote count (part ++ d :: text) = (count + part.length, closed))
    (other : List Char) :
    quotedTail quote count (part ++ d :: other) = (count + part.length, closed) := by
  generalize hlength : part.length = length at h ⊢
  induction length using Nat.strongRecOn generalizing part count with
  | ind length ih =>
      have hgrows {more : Nat} {rest : List Char} (hmore : count + length < more)
          (hrest : quotedTail quote more rest = (count + length, closed)) : False := by
        have hle := le_quotedTail quote more rest
        rw [hrest] at hle
        simp only at hle
        omega
      cases part with
      | nil =>
          rw [List.length_nil] at hlength
          subst hlength
          rw [List.nil_append, quotedTail_cons] at h ⊢
          split at h
          next => simp at h
          next hquote =>
            rw [if_neg hquote]
            split at h
            next hline => rw [if_pos hline, h]
            next hline =>
              exfalso
              split at h
              · split at h
                · simp at h
                · split at h
                  · simp at h
                  · exact hgrows (by omega) h
              · exact hgrows (by omega) h
      | cons c part =>
          rw [List.length_cons] at hlength
          rw [List.cons_append, quotedTail_cons] at h ⊢
          split at h
          next hquote => rw [if_pos hquote, h]
          next hquote =>
            rw [if_neg hquote]
            split at h
            next hline =>
              simp only [Prod.mk.injEq] at h
              omega
            next hline =>
              rw [if_neg hline]
              split at h
              next hescape =>
                rw [if_pos hescape]
                cases part with
                | nil =>
                    rw [List.length_nil] at hlength
                    simp only [List.nil_append] at h ⊢
                    split at h
                    next hnext => rw [if_pos hnext, h]
                    next hnext => exact (hgrows (by omega) h).elim
                | cons e part =>
                    rw [List.length_cons] at hlength
                    simp only [List.cons_append] at h ⊢
                    split at h
                    next hnext => rw [if_pos hnext, h]
                    next hnext =>
                      rw [if_neg hnext]
                      have hcount : count + length = count + 2 + part.length := by omega
                      rw [hcount] at h ⊢
                      exact ih part.length (by omega) part rfl h
              next hescape =>
                rw [if_neg hescape]
                have hcount : count + length = count + 1 + part.length := by omega
                rw [hcount] at h ⊢
                exact ih part.length (by omega) part rfl h

/-- A text block that is never closed takes all that is left. -/
theorem textBlockTail_open {count last : Nat} {text : List Char}
    (h : textBlockTail count text = (last, false)) : last = count + text.length := by
  fun_induction textBlockTail count text with
  | case1 => cases h; rfl
  | case2 => cases h
  | case3 => cases h; rfl
  | case4 count c text _ ih =>
      rw [ih h, List.length_cons, List.length_cons]
      omega
  | case5 count c text _ _ ih =>
      rw [ih h, List.length_cons]
      omega

/-- The beginning of a text that passes a test and ends in front of a character ends there whatever
stands behind the character. -/
theorem takeWhile_stop {test : Char → Bool} (part : List Char) {d : Char} {text : List Char}
    (h : ((part ++ d :: text).takeWhile test).length = part.length) (other : List Char) :
    ((part ++ d :: other).takeWhile test).length = part.length := by
  induction part with
  | nil =>
      rw [List.nil_append, List.takeWhile_cons] at h ⊢
      split at h
      next => cases h
      next hd => rw [if_neg hd, List.length_nil]
  | cons c part ih =>
      rw [List.cons_append, List.takeWhile_cons] at h ⊢
      split at h
      next hc =>
        rw [if_pos hc, List.length_cons, List.length_cons]
        rw [List.length_cons, List.length_cons] at h
        rw [ih (Nat.succ.inj h)]
      next => cases h

/-! ### Lexemes in front of a brace -/

/-- A lexeme that is not a token with nothing wrong, in front of a character: it is the same if the
character is followed by something shorter. -/
theorem atHead_stop {c d : Char} {part text other : List Char} {kind : Kind}
    (h : Follows (d :: text) (d :: other)) (hkind : kind.isWhole = false)
    (htext : atHead c (part ++ d :: text) = ⟨kind, part.length⟩) :
    atHead c (part ++ d :: other) = ⟨kind, part.length⟩ := by
  have hhead : (part ++ d :: text).head? = (part ++ d :: other).head? := by cases part <;> rfl
  unfold atHead at htext ⊢
  rw [← hhead]
  split at htext
  next hblank => rw [if_pos hblank, htext]
  next hblank =>
  rw [if_neg hblank]
  split at htext
  next hline =>
    obtain ⟨rfl, hextra⟩ := Lexeme.mk.inj htext
    rw [if_pos hline, takeWhile_stop part hextra]
  next hline =>
  rw [if_neg hline]
  split at htext
  next hcomment =>
    rw [if_pos hcomment]
    obtain ⟨rfl, hextra⟩ := Lexeme.mk.inj htext
    -- The star belongs to the comment, so what is behind it ends in front of the character too.
    cases part with
    | nil =>
        have hle := le_commentTail 1 ([] ++ d :: text).tail
        exact absurd hextra (Nat.ne_of_gt hle)
    | cons e part =>
        have hlength : (e :: part).length = 1 + part.length := Nat.add_comm _ _
        rw [hlength] at hextra ⊢
        have htail : commentTail 1 (part ++ d :: text) =
            (1 + part.length, (commentTail 1 ((e :: part) ++ d :: text).tail).2) :=
          Prod.ext hextra rfl
        simp only [List.cons_append, List.tail_cons, commentTail_stop part htail other]
  next hcomment =>
  rw [if_neg hcomment]
  split at htext
  next hstring =>
    subst hstring
    rw [if_pos rfl]
    split at htext
    next hblock =>
      -- A text block that is not closed leaves no character behind it.
      exfalso
      obtain ⟨rfl, hextra⟩ := Lexeme.mk.inj htext
      have hopen : textBlockTail 2 ((part ++ d :: text).drop 2) = (part.length, false) :=
        Prod.ext hextra hkind
      have hlong := (List.isPrefixOf_iff_prefix.1 (atTripleQuote_eq _ ▸ hblock)).length_le
      have hlast := textBlockTail_open hopen
      simp only [List.length_drop, List.length_append, List.length_cons, List.length_nil]
        at hlast hlong
      omega
    next hblock =>
      have hplain : ¬ atTripleQuote ('"' :: (part ++ d :: other)) = true := by
        rw [atTripleQuote_eq, List.isPrefixOf_iff_prefix] at hblock ⊢
        exact fun hother => hblock ((h.append part).cons.isPrefix (by decide) hother)
      rw [if_neg hplain]
      obtain ⟨rfl, hextra⟩ := Lexeme.mk.inj htext
      rw [← Nat.zero_add part.length] at hextra ⊢
      simp only [quotedTail_stop part (Prod.ext hextra rfl) other]
  next hstring =>
  rw [if_neg hstring]
  split at htext
  next hcharacter =>
    rw [if_pos hcharacter]
    obtain ⟨rfl, hextra⟩ := Lexeme.mk.inj htext
    rw [← Nat.zero_add part.length] at hextra ⊢
    simp only [quotedTail_stop part (Prod.ext hextra rfl) other]
  next hcharacter =>
  rw [if_neg hcharacter]
  split at htext
  next =>
    obtain ⟨rfl, -⟩ := Lexeme.mk.inj htext
    cases hkind
  next hnumber =>
  rw [if_neg hnumber]
  split at htext
  next =>
    obtain ⟨rfl, -⟩ := Lexeme.mk.inj htext
    cases hkind
  next hword =>
  rw [if_neg hword]
  cases hop : operatorAt? (c :: (part ++ d :: text)) with
  | some op =>
      rw [hop] at htext
      obtain ⟨rfl, -⟩ := Lexeme.mk.inj htext
      cases hkind
  | none =>
      -- No operator stands at the head of a shorter text that none stands at the head of.
      have hother : operatorAt? (c :: (part ++ d :: other)) = none := by
        rw [operatorAt?_eq, List.find?_eq_none] at hop ⊢
        intro op hmem hfits
        refine hop op hmem (List.isPrefixOf_iff_prefix.2 ?_)
        exact (h.append part).cons.isPrefix (plain_triedOperators op hmem).1
          (List.isPrefixOf_iff_prefix.1 hfits)
      rw [hop] at htext
      rw [hother]
      exact htext

/-- **A lexeme in front of a brace does not see what is behind the brace.** -/
theorem atHead_cut {c : Char} {part text back : List Char} {kind : Kind}
    (h : atHead c (part ++ (text ++ '\x7d' :: back)) = ⟨kind, part.length⟩) :
    atHead c (part ++ (text ++ ['\x7d'])) = ⟨kind, part.length⟩ := by
  have hfollows : Follows (text ++ '\x7d' :: back) (text ++ ['\x7d']) :=
    Follows.append (.cons .nil) text
  cases hwhole : kind.isWhole with
  | true =>
      refine atHead_follows hfollows hwhole (fun _ hpoints _ => ?_) h
      -- The brace is none of two points, so both are in front of it.
      rcases text with _ | ⟨a, _ | ⟨b, text⟩⟩
      · simp at hpoints
      · simp at hpoints
      · simpa using hpoints
  | false =>
      cases text with
      | nil => exact atHead_stop hfollows hwhole h
      | cons d text => exact atHead_stop hfollows hwhole h

/-- A closing brace stands alone. -/
theorem atHead_brace (text : List Char) : atHead '\x7d' text = ⟨.operator, 0⟩ := rfl

end Lexeme

/-! ### The pieces from one on -/

/-- The pieces from one on are those of the text from it on. -/
theorem pieces_drop (p : Position) (text : List Char) {ahead behind : List Piece} {piece : Piece}
    (h : (pieces p text).1 = ahead ++ piece :: behind) :
    ∃ back, text = ahead.flatMap Piece.text ++ back ∧
      piece.span.start.offset = p.offset + Text.byteLength (ahead.flatMap Piece.text) ∧
      pieces piece.span.start back = (piece :: behind, (pieces p text).2) := by
  induction p, text using pieces_induct generalizing ahead with
  | nil p =>
      have hnil : [] = ahead ++ piece :: behind := h
      simp at hnil
  | cons p c text ih =>
      rw [pieces_cons] at h ⊢
      cases ahead with
      | nil =>
          obtain ⟨rfl, hbehind⟩ := List.cons.inj h
          refine ⟨c :: text, rfl, rfl, ?_⟩
          rw [← hbehind]
          exact pieces_cons p c text
      | cons first ahead =>
          obtain ⟨rfl, hlater⟩ := List.cons.inj h
          obtain ⟨back, htext, hstart, hback⟩ := ih hlater
          have hstop : (Piece.atHead p c text).span.stop.offset =
              p.offset + Text.byteLength (Piece.atHead p c text).text := Position.offset_pastAll _ _ _
          refine ⟨back, ?_, ?_, hback⟩
          · rw [List.flatMap_cons, List.append_assoc, ← htext, Piece.text_append_drop]
          · rw [hstart, hstop, List.flatMap_cons, Text.byteLength_append, Nat.add_assoc]

/-! ### The pieces up to a brace -/

/-- The first piece is the same if the text is cut off behind a later brace. -/
theorem Piece.atHead_cut (p : Position) {c : Char} {part text back : List Char} {kind : Lexeme.Kind}
    (h : Lexeme.atHead c (part ++ (text ++ '\x7d' :: back)) = ⟨kind, part.length⟩) :
    Piece.atHead p c (part ++ (text ++ ['\x7d'])) =
      Piece.atHead p c (part ++ (text ++ '\x7d' :: back)) := by
  have hhead : (text ++ ['\x7d']).head? = (text ++ '\x7d' :: back).head? := by cases text <;> rfl
  simp [Piece.atHead, h, Lexeme.atHead_cut h, hhead]

/-- A brace is the same piece whatever stands behind it. -/
theorem Piece.atHead_brace (p : Position) (text : List Char) :
    Piece.atHead p '\x7d' text = Piece.atHead p '\x7d' [] := by
  simp only [Piece.atHead, Lexeme.atHead_brace]
  rfl

/-- What stands in front of a brace and behind it. -/
theorem text_around_brace {p : Position} {text : List Char} {ahead behind : List Piece}
    {brace : Piece} (h : (pieces p text).1 = ahead ++ brace :: behind)
    (hbrace : brace.text = ['\x7d']) :
    text = ahead.flatMap Piece.text ++ '\x7d' :: behind.flatMap Piece.text := by
  have hcover := text_pieces p text
  rw [h, List.flatMap_append, List.flatMap_cons, hbrace] at hcover
  exact hcover.symm

/-- The pieces up to a brace are those of the text up to it. -/
theorem pieces_cut (p : Position) (text : List Char) {ahead behind : List Piece} {brace : Piece}
    (h : (pieces p text).1 = ahead ++ brace :: behind) (hbrace : brace.text = ['\x7d']) :
    pieces p (ahead.flatMap Piece.text ++ ['\x7d']) = (ahead ++ [brace], brace.span.stop) := by
  induction p, text using pieces_induct generalizing ahead with
  | nil p =>
      have hnil : [] = ahead ++ brace :: behind := h
      simp at hnil
  | cons p c text ih =>
      rw [pieces_cons] at h
      cases ahead with
      | nil =>
          obtain ⟨rfl, -⟩ := List.cons.inj h
          obtain rfl : c = '\x7d' := List.head_eq_of_cons_eq hbrace
          rw [List.flatMap_nil, List.nil_append, List.nil_append, Piece.atHead_brace p text]
          rfl
      | cons first ahead =>
          obtain ⟨rfl, hlater⟩ := List.cons.inj h
          have hrest := text_around_brace hlater hbrace
          -- The piece leaves the brace at least, and so it has all the characters of its lexeme.
          have hlength : (text.take (Lexeme.atHead c text).extra).length =
              (Lexeme.atHead c text).extra := by
            refine List.length_take_of_le (Nat.le_of_lt ?_)
            have hpos := congrArg List.length hrest
            simp only [List.length_drop, List.length_append, List.length_cons] at hpos
            omega
          have hlexeme : Lexeme.atHead c (text.take (Lexeme.atHead c text).extra ++
              (ahead.flatMap Piece.text ++ '\x7d' :: behind.flatMap Piece.text)) =
                ⟨(Lexeme.atHead c text).kind, (text.take (Lexeme.atHead c text).extra).length⟩ := by
            rw [← hrest, List.take_append_drop, hlength]
          have hcut := Lexeme.atHead_cut hlexeme
          have hpiece := Piece.atHead_cut p hlexeme
          rw [← hrest, List.take_append_drop] at hpiece
          have htext : (Piece.atHead p c text).text = c :: text.take (Lexeme.atHead c text).extra := rfl
          rw [List.flatMap_cons, htext, List.cons_append, List.cons_append, List.append_assoc,
            pieces_cons]
          simp only [hpiece, hcut, List.drop_left, ih hlater]
          rfl

/-! ### Where pieces lie -/

/-- The pieces of a text lie one behind another. -/
theorem pieces_apart (p : Position) (text : List Char) :
    (pieces p text).1.Pairwise fun piece later =>
      piece.span.stop.offset ≤ later.span.start.offset :=
  List.pairwise_reverse.2 (piecesLoop_stacked text.length text (Piece.stacked_nil p)).apart

/-- A piece has characters, and its separators are among them. -/
theorem pieces_inside (p : Position) (text : List Char) :
    ∀ piece ∈ (pieces p text).1, piece.span.start.offset < piece.span.stop.offset ∧
      ∀ offset ∈ piece.separators,
        piece.span.start.offset ≤ offset ∧ offset < piece.span.stop.offset := by
  induction p, text using pieces_induct with
  | nil p => exact nofun
  | cons p c text ih =>
      intro piece hpiece
      rw [pieces_cons] at hpiece
      rcases List.mem_cons.1 hpiece with rfl | hlater
      · refine ⟨Piece.start_lt_stop_atHead p c text, fun offset hoffset => ?_⟩
        simp only [Piece.atHead, Position.separatorsIn_eq, Position.offset_pastAll] at hoffset ⊢
        exact Text.offset_of_mem_lineEnds hoffset
      · exact ih piece hlater

/-- A token is one of the pieces. -/
theorem exists_piece_of_token {found : List Piece} {k : Nat} {t : Token}
    (h : (found.filterMap Piece.token?)[k]? = some t) :
    ∃ ahead piece behind, found = ahead ++ piece :: behind ∧ piece.token? = some t ∧
      (ahead.filterMap Piece.token?).length = k := by
  obtain ⟨hlt, hget⟩ := List.getElem?_eq_some_iff.1 h
  have hsplit : found.filterMap Piece.token? = (found.filterMap Piece.token?).take k ++
      t :: (found.filterMap Piece.token?).drop (k + 1) := by
    rw [← hget, ← List.drop_eq_getElem_cons hlt, List.take_append_drop]
  obtain ⟨front, back, rfl, hfront, hback⟩ := List.filterMap_eq_append_iff.1 hsplit
  obtain ⟨gap, piece, behind, rfl, hgap, htoken, -⟩ := List.filterMap_eq_cons_iff.1 hback
  refine ⟨front ++ gap, piece, behind, by simp, htoken, ?_⟩
  have hnone : gap.filterMap Piece.token? = [] := List.filterMap_eq_nil_iff.2 hgap
  rw [List.filterMap_append, hnone, List.append_nil, hfront, List.length_take]
  exact Nat.min_eq_left (Nat.le_of_lt hlt)

/-- The pieces of a source in three parts: those that end in front of a part of it, those inside, and
those that begin behind it. -/
structure PartedAt (start stop : Nat) (found ahead middle behind : List Piece) : Prop where
  whole : found = ahead ++ (middle ++ behind)
  before : ∀ piece ∈ ahead, piece.span.stop.offset ≤ start
  inside : ∀ piece ∈ middle, start ≤ piece.span.start.offset ∧ piece.span.stop.offset ≤ stop
  after : ∀ piece ∈ behind, stop ≤ piece.span.start.offset

/-- What is read off the pieces and lies inside is what is read off the pieces inside. -/
theorem PartedAt.filter_flatMap {α : Type} {start stop : Nat}
    {found ahead middle behind : List Piece} (h : PartedAt start stop found ahead middle behind)
    {read : Piece → List α} {test : α → Bool}
    (hinside : ∀ piece ∈ found, ∀ item ∈ read piece, start ≤ piece.span.start.offset →
      piece.span.stop.offset ≤ stop → test item = true)
    (houtside : ∀ piece ∈ found, ∀ item ∈ read piece,
      piece.span.stop.offset ≤ start ∨ stop ≤ piece.span.start.offset → test item = false) :
    (found.flatMap read).filter test = middle.flatMap read := by
  have hahead : (ahead.flatMap read).filter test = [] := by
    refine List.filter_eq_nil_iff.2 fun item hitem => ?_
    obtain ⟨piece, hpiece, hown⟩ := List.mem_flatMap.1 hitem
    simp [houtside piece (by simp [h.whole, hpiece]) item hown (.inl (h.before piece hpiece))]
  have hmiddle : (middle.flatMap read).filter test = middle.flatMap read := by
    refine List.filter_eq_self.2 fun item hitem => ?_
    obtain ⟨piece, hpiece, hown⟩ := List.mem_flatMap.1 hitem
    obtain ⟨hstart, hstop⟩ := h.inside piece hpiece
    exact hinside piece (by simp [h.whole, hpiece]) item hown hstart hstop
  have hbehind : (behind.flatMap read).filter test = [] := by
    refine List.filter_eq_nil_iff.2 fun item hitem => ?_
    obtain ⟨piece, hpiece, hown⟩ := List.mem_flatMap.1 hitem
    simp [houtside piece (by simp [h.whole, hpiece]) item hown (.inr (h.after piece hpiece))]
  rw [h.whole, List.flatMap_append, List.flatMap_append, List.filter_append, List.filter_append,
    hahead, hmiddle, hbehind, List.nil_append, List.append_nil]

/-- Two pieces of a text divide the others. -/
theorem partedAt_pieces {p : Position} {text : List Char} {ahead between rest behind : List Piece}
    {first last : Piece} (hfirst : (pieces p text).1 = ahead ++ first :: rest)
    (hlast : first :: rest = between ++ last :: behind) :
    PartedAt first.span.start.offset last.span.stop.offset (pieces p text).1 ahead
      (between ++ [last]) behind := by
  have hinside := pieces_inside p text
  have hapart := pieces_apart p text
  rw [hfirst] at hinside hapart
  obtain ⟨-, hlater, hahead⟩ := List.pairwise_append.1 hapart
  have hbehind := hlater
  rw [hlast] at hbehind
  obtain ⟨-, hafter, hbetween⟩ := List.pairwise_append.1 hbehind
  have hsame : (between ++ [last]) ++ behind = first :: rest := by simp [hlast]
  refine ⟨by rw [hfirst, hsame], fun piece hpiece => hahead piece hpiece first List.mem_cons_self,
    fun piece hpiece => ⟨?_, ?_⟩, (List.pairwise_cons.1 hafter).1⟩
  · have hmem : piece ∈ first :: rest := hsame ▸ List.mem_append_left behind hpiece
    rcases List.mem_cons.1 hmem with rfl | hrest
    · exact Nat.le_refl _
    · have hle := (List.pairwise_cons.1 hlater).1 piece hrest
      have hlt := (hinside first (by simp)).1
      omega
  · rcases List.mem_append.1 hpiece with hfront | hown
    · have hle := hbetween piece hfront last List.mem_cons_self
      have hlt := (hinside last (by simp [hlast])).1
      omega
    · rw [List.mem_singleton.1 hown]

/-! ### The scan between two places -/

namespace Scan

/-- What is read off the pieces of a text that ends at a place. -/
def ofPieces (found : List Piece) (finish : Position) : Scan where
  tokens := found.filterMap Piece.token?
  finish := finish
  separators := found.flatMap Piece.separators
  errors := found.filterMap Piece.error?

/-- **A part that begins with a token and ends with a brace has the pieces of the source that lie in
it.** -/
theorem ofRange_pieces (source : String) {k l : Nat} {first last : Token}
    (hfirst : (ofText source).tokens[k]? = some first)
    (hlast : (ofText source).tokens[l]? = some last) (hle : k ≤ l) (hbrace : last.is "\x7d" = true) :
    ∃ ahead middle behind,
      PartedAt first.span.start.offset last.span.stop.offset
        (pieces Position.start source.toList).1 ahead middle behind ∧
      (ahead.filterMap Piece.token?).length = k ∧
      (middle.filterMap Piece.token?).length = l + 1 - k ∧
      ofRange source.toList first.span.start last.span.stop.offset =
        ofPieces middle last.span.stop := by
  obtain ⟨ahead, piece, rest, hpieces, htoken, hahead⟩ := exists_piece_of_token hfirst
  obtain ⟨back, hsource, hstart, hback⟩ := pieces_drop _ _ hpieces
  -- The last token is one of the pieces from the first one on.
  have hbehind : ((piece :: rest).filterMap Piece.token?)[l - k]? = some last := by
    have htokens : (ofText source).tokens =
        ahead.filterMap Piece.token? ++ (piece :: rest).filterMap Piece.token? := by
      rw [← List.filterMap_append, ← hpieces]
      rfl
    rwa [htokens, List.getElem?_append_right (hahead ▸ hle), hahead] at hlast
  obtain ⟨between, brace, behind, hrest, hbraceToken, hbetween⟩ := exists_piece_of_token hbehind
  have hpiece : piece.span = first.span := (Piece.span_of_token? htoken).symm
  have hspan : brace.span = last.span := (Piece.span_of_token? hbraceToken).symm
  have htext : brace.text = ['\x7d'] := by
    obtain ⟨kind, -, rfl⟩ := Option.map_eq_some_iff.1 hbraceToken
    have hlist := congrArg String.toList (Token.text_of_is hbrace)
    rwa [String.toList_ofList] at hlist
  have hparted := partedAt_pieces hpieces hrest
  rw [hpiece, hspan] at hparted
  refine ⟨ahead, between ++ [brace], behind, hparted, hahead, ?_, ?_⟩
  · rw [List.filterMap_append, List.length_append, hbetween]
    simp [hbraceToken]
    omega
  · rw [hpiece] at hback hstart
    have hparts : (pieces first.span.start back).1 = between ++ brace :: behind := by rw [hback, hrest]
    have hcut := pieces_cut _ _ hparts htext
    rw [hspan] at hcut
    have hscan : ofChars first.span.start (between.flatMap Piece.text ++ ['\x7d']) =
        ofPieces (between ++ [brace]) last.span.stop := by
      simp only [ofChars, hcut]
      rfl
    have hstop : last.span.stop.offset = first.span.start.offset +
        Text.byteLength (between.flatMap Piece.text ++ ['\x7d']) := by
      have hfinish := finish_ofChars first.span.start (between.flatMap Piece.text ++ ['\x7d'])
      rw [hscan] at hfinish
      rw [← Position.offset_pastAll _ _ none, ← hfinish]
      rfl
    have hoffset : first.span.start.offset = Text.byteLength (ahead.flatMap Piece.text) := by
      rw [hstart]
      exact Nat.zero_add _
    have hwhole : source.toList = ahead.flatMap Piece.text ++
        ((between.flatMap Piece.text ++ ['\x7d']) ++ behind.flatMap Piece.text) := by
      rw [hsource, text_around_brace hparts htext, List.append_assoc, List.singleton_append]
    rw [hwhole, hstop, ofRange_append _ _ _ _ hoffset, hscan]

/-- **The tokens between two braces are found again**, and so are those from any token up to a
closing brace. -/
theorem tokens_ofRange (source : String) {k l : Nat} {first last : Token}
    (hfirst : (ofText source).tokens[k]? = some first)
    (hlast : (ofText source).tokens[l]? = some last) (hle : k ≤ l) (hbrace : last.is "\x7d" = true) :
    (ofRange source.toList first.span.start last.span.stop.offset).tokens =
      ((ofText source).tokens.drop k).take (l + 1 - k) := by
  obtain ⟨ahead, middle, behind, hparted, hahead, hmiddle, hrange⟩ :=
    ofRange_pieces source hfirst hlast hle hbrace
  have htokens : (ofText source).tokens = ahead.filterMap Piece.token? ++
      (middle.filterMap Piece.token? ++ behind.filterMap Piece.token?) := by
    rw [← List.filterMap_append, ← List.filterMap_append, ← hparted.whole]
    rfl
  have hcut : ((ofText source).tokens.drop k).take (l + 1 - k) = middle.filterMap Piece.token? := by
    rw [htokens, List.drop_left' hahead, List.take_left' hmiddle]
  rw [hrange, hcut]
  rfl

/-- **A part between two braces is scanned as it is in the whole source**, and so is a part from any
token up to a closing brace.  The tokens are those from the first one to the last, with their places, and
the scan ends where the last one does.  The line separators are those between the two offsets, and the
errors those whose spans lie between them. -/
theorem ofRange_braces (source : String) {k l : Nat} {first last : Token}
    (hfirst : (ofText source).tokens[k]? = some first)
    (hlast : (ofText source).tokens[l]? = some last) (hle : k ≤ l) (hbrace : last.is "\x7d" = true) :
    let start := first.span.start.offset
    let stop := last.span.stop.offset
    ofRange source.toList first.span.start stop =
      { tokens := ((ofText source).tokens.drop k).take (l + 1 - k)
        finish := last.span.stop
        separators := (ofText source).separators.filter fun offset =>
          start ≤ offset ∧ offset < stop
        errors := (ofText source).errors.filter fun e =>
          start ≤ e.span.start.offset ∧ e.span.stop.offset ≤ stop } := by
  intro start stop
  have htokens := tokens_ofRange source hfirst hlast hle hbrace
  obtain ⟨ahead, middle, behind, hparted, -, -, hrange⟩ :=
    ofRange_pieces source hfirst hlast hle hbrace
  have hinside := pieces_inside Position.start source.toList
  have hseparators : (ofText source).separators.filter (fun offset =>
      start ≤ offset ∧ offset < stop) = middle.flatMap Piece.separators := by
    refine hparted.filter_flatMap (fun piece hpiece offset hown hstart hstop => ?_)
      fun piece hpiece offset hown hout => ?_
    · have hbounds := (hinside piece hpiece).2 offset hown
      simp only [decide_eq_true_eq]
      omega
    · have hbounds := (hinside piece hpiece).2 offset hown
      simp only [decide_eq_false_iff_not]
      omega
  have herrors : (ofText source).errors.filter (fun e =>
      start ≤ e.span.start.offset ∧ e.span.stop.offset ≤ stop) = middle.filterMap Piece.error? := by
    have hread (found : List Piece) :
        found.filterMap Piece.error? = found.flatMap fun piece => piece.error?.toList :=
      List.filterMap_eq_flatMap_toList ..
    rw [hread, ofText, ofChars]
    simp only [hread]
    refine hparted.filter_flatMap (fun piece hpiece e hown hstart hstop => ?_)
      fun piece hpiece e hown hout => ?_
    · rw [Piece.span_of_error? (Option.mem_toList.1 hown)]
      simp only [decide_eq_true_eq]
      exact ⟨hstart, hstop⟩
    · have hbounds := (hinside piece hpiece).1
      rw [Piece.span_of_error? (Option.mem_toList.1 hown)]
      simp only [decide_eq_false_iff_not]
      omega
  rw [hrange] at htokens
  rw [hrange, ← htokens, hseparators, herrors]
  rfl

/-- Two braces with a character literal between them that is not closed, and characters around them
that begin nothing. -/
theorem ofRange_braces_broken :
    let source := "# \x7b\n'\n\x7d\n#"
    let opening : Token := ⟨.operator, "\x7b", ⟨⟨2, 1, 3⟩, ⟨3, 1, 4⟩⟩⟩
    let literal : Token := ⟨.literal, "'", ⟨⟨4, 2, 1⟩, ⟨5, 2, 2⟩⟩⟩
    let closing : Token := ⟨.operator, "\x7d", ⟨⟨6, 3, 1⟩, ⟨7, 3, 2⟩⟩⟩
    (ofText source).tokens[0]? = some opening ∧ (ofText source).tokens[2]? = some closing ∧
      closing.is "\x7d" = true ∧ (ofText source).errors.length = 3 ∧
      ofRange source.toList opening.span.start closing.span.stop.offset =
        { tokens := [opening, literal, closing]
          finish := closing.span.stop
          separators := [3, 5]
          errors := [.unterminatedCharacter literal.span] } := by
  intro source opening literal closing
  have hopening : (ofText source).tokens[0]? = some opening := by decide +kernel
  have hclosing : (ofText source).tokens[2]? = some closing := by decide +kernel
  have hbrace : closing.is "\x7d" = true := by decide
  refine ⟨hopening, hclosing, hbrace, by decide +kernel, ?_⟩
  exact (ofRange_braces source hopening hclosing (by decide) hbrace).trans (by decide +kernel)

end Scan

end JavaOutline
