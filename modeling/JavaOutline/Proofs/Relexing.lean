/-
**Reading tokens again.**

The tokens of a source are written side by side, with one blank where the source has a gap, and what
is written is scanned.  If nothing was wrong with the source, the same tokens come out: they have the
sorts and the texts that they had, and touch each other where they did.  Where an expression is cut
out of the source, it must not be cut between two points.  The same holds if a comma is written behind
the tokens, whatever follows it.  The sort of an expression is read off what comes out, so it is the
same for the tokens that are read again.

Main definitions:

* `Lexed` — the tokens that stand in a text with which nothing is wrong;
* `Token.Retold` — tokens that are written as others are and touch each other as they do;
* `CutPlain` — tokens are not cut off between two points.

Main results:

* `lexed_ofChars` — the tokens of a scan without errors stand in its text;
* `relex_joinFrom_atComma`, `relex_joinFrom` — **tokens that are written side by side are read
  again**;
* `Expression.Kind.ofTokens_retold` — **their sort is the same**.
-/

import JavaOutline.Outline.Phrase
import JavaOutline.Proofs.CommaContext
import JavaOutline.Proofs.Tiling

set_option autoImplicit false

namespace JavaOutline

open Text (Follows)

/-! ### Tokens in a text with which nothing is wrong -/

/-- The sort of token that a lexeme with some characters is. -/
def Lexeme.tokenKind? (kind : Lexeme.Kind) (text : List Char) : Option Token.Kind :=
  Piece.tokenKind? { kind, text, span := {}, separators := [] }

/-- The tokens that stand in a text from an offset on, if nothing is wrong with it: each is the lexeme
at the head of what a gap leaves, and no gap begins with a point. -/
inductive Lexed : Nat → List Char → List Token → Prop
  | nil {offset : Nat} {text : List Char} (h : text.head? ≠ some '.') : Lexed offset text []
  | cons {offset : Nat} {gap part text : List Char} {c : Char} {kind : Lexeme.Kind} {t : Token}
      {tokens : List Token} (hgap : gap.head? ≠ some '.')
      (hlexeme : Lexeme.atHead c (part ++ text) = ⟨kind, part.length⟩)
      (hwhole : kind.isWhole = true)
      (hkind : Lexeme.tokenKind? kind (c :: part) = some t.kind)
      (htext : t.text.toList = c :: part)
      (hstart : t.span.start.offset = offset + Text.byteLength gap)
      (later : Lexed t.span.stop.offset text tokens) :
      Lexed offset (gap ++ c :: (part ++ text)) (t :: tokens)

/-- One more part of the first gap. -/
theorem Lexed.fill {offset : Nat} {part text : List Char} {tokens : List Token}
    (h : Lexed (offset + Text.byteLength part) text tokens) (hne : part ≠ [])
    (hpart : part.head? ≠ some '.') : Lexed offset (part ++ text) tokens := by
  have hhead (text : List Char) : (part ++ text).head? = part.head? := by
    obtain ⟨c, part, rfl⟩ := List.exists_cons_of_ne_nil hne
    rfl
  cases h with
  | nil _ => exact .nil (by rwa [hhead])
  | cons hgap hlexeme hwhole hkind htext hstart later =>
      rw [← List.append_assoc]
      refine .cons (by rwa [hhead]) hlexeme hwhole hkind htext ?_ later
      rw [hstart, Text.byteLength_append, Nat.add_assoc]

/-- Behind some tokens stand the others. -/
theorem Lexed.drop {offset : Nat} {text : List Char} (front : List Token) {tokens : List Token}
    (h : Lexed offset text (front ++ tokens)) : ∃ offset text, Lexed offset text tokens := by
  induction front generalizing offset text with
  | nil => exact ⟨offset, text, h⟩
  | cons t front ih =>
      cases h with
      | cons _ _ _ _ _ _ later => exact ih later

/-- The piece at the head of a text, by the lexeme that stands there. -/
theorem Scan.ofChars_lexeme (p : Position) {c : Char} {part text : List Char} {kind : Lexeme.Kind}
    (h : Lexeme.atHead c (part ++ text) = ⟨kind, part.length⟩) :
    let piece := Piece.atHead p c (part ++ text)
    piece.kind = kind ∧ piece.text = c :: part ∧
      ofChars p (c :: (part ++ text)) =
        { tokens := piece.token?.toList ++ (ofChars piece.span.stop text).tokens
          finish := (ofChars piece.span.stop text).finish
          separators := piece.separators ++ (ofChars piece.span.stop text).separators
          errors := piece.error?.toList ++ (ofChars piece.span.stop text).errors } := by
  refine ⟨?_, ?_, ?_⟩
  · simp [Piece.atHead, h]
  · simp [Piece.atHead, h]
  · rw [ofChars_cons]
    simp [h]

/-- A token with which nothing is wrong is a token, and no other lexeme is. -/
theorem Lexeme.isWhole_of_isToken {piece : Piece} (h : piece.kind.isToken = true)
    (herror : piece.error? = none) : piece.kind.isWhole = true := by
  unfold Piece.error? at herror
  cases hkind : piece.kind with
  | string closed => cases closed <;> simp_all [Kind.isWhole]
  | character closed => cases closed <;> simp_all [Kind.isWhole]
  | number => rfl
  | word => rfl
  | operator => rfl
  | blank => simp [hkind, Kind.isToken] at h
  | lineComment => simp [hkind, Kind.isToken] at h
  | blockComment _ => simp [hkind, Kind.isToken] at h
  | unknown => simp [hkind, Kind.isToken] at h

/-- A lexeme with which nothing is wrong and which is no token does not begin with a point. -/
theorem Lexeme.ne_point_of_gap {c : Char} {text : List Char} {p : Position}
    (h : (atHead c text).kind.isToken = false) (herror : (Piece.atHead p c text).error? = none) :
    c ≠ '.' := by
  rintro rfl
  have hsort : (Piece.atHead p '.' text).kind = (atHead '.' text).kind := rfl
  have hshape := shape_atHead '.' text
  have htext : (Piece.atHead p '.' text).text = '.' :: text.take (atHead '.' text).extra := rfl
  generalize Piece.atHead p '.' text = piece at *
  generalize atHead '.' text = lexeme at *
  cases hshape with
  | token htoken => exact absurd h (by simp [htoken])
  | blank hblank => exact absurd hblank (by decide)
  | unknown => simp [Piece.error?, hsort, htext] at herror

/-- **The tokens of a scan without errors stand in its text.** -/
theorem lexed_ofChars (p : Position) (text : List Char)
    (herrors : (Scan.ofChars p text).errors = []) :
    Lexed p.offset text (Scan.ofChars p text).tokens := by
  induction p, text using pieces_induct with
  | nil p => exact .nil (by simp)
  | cons p c text ih =>
      rw [Scan.ofChars_cons] at herrors ⊢
      obtain ⟨hown, hlater⟩ := List.append_eq_nil_iff.1 herrors
      have herror : (Piece.atHead p c text).error? = none := by simpa using hown
      have hlexed := ih hlater
      have hstop : (Piece.atHead p c text).span.stop.offset =
          p.offset + Text.byteLength (Piece.atHead p c text).text := Position.offset_pastAll _ _ _
      have htoken := Piece.token?_atHead p c text
      simp only
      cases hkind : (Lexeme.atHead c text).kind.isToken with
      | true =>
          have hwhole := Lexeme.isWhole_of_isToken hkind herror
          have hlength : (text.take (Lexeme.atHead c text).extra).length =
              (Lexeme.atHead c text).extra :=
            List.length_take_of_le (Lexeme.extra_atHead_le hwhole)
          have hcut := List.take_append_drop (Lexeme.atHead c text).extra text
          rw [hkind, if_pos rfl] at htoken
          obtain ⟨kind, htoken⟩ := htoken
          rw [htoken]
          have hsort : (Piece.atHead p c text).tokenKind? = some kind := by
            obtain ⟨kind', hkind', heq⟩ := Option.map_eq_some_iff.1 htoken
            rw [hkind', (Token.mk.inj heq).1]
          have hlexed' : Lexed p.offset ([] ++ c :: (text.take (Lexeme.atHead c text).extra ++
              text.drop (Lexeme.atHead c text).extra))
              (⟨kind, String.ofList (Piece.atHead p c text).text, (Piece.atHead p c text).span⟩ ::
                (Scan.ofChars (Piece.atHead p c text).span.stop
                  (text.drop (Lexeme.atHead c text).extra)).tokens) :=
            .cons (by simp) (by rw [hcut, hlength]; rfl) hwhole hsort (by simp; rfl) rfl hlexed
          rwa [List.nil_append, hcut] at hlexed'
      | false =>
          rw [hkind, if_neg Bool.false_ne_true] at htoken
          rw [hstop] at hlexed
          rw [htoken, ← Piece.text_append_drop p c text]
          have hpoint := Lexeme.ne_point_of_gap hkind herror
          exact hlexed.fill nofun fun hhead => hpoint (Option.some.inj hhead)

/-! ### Tokens that are written again -/

namespace Token

/-- The token without its place. -/
def bare (t : Token) : Token := { t with span := {} }

/-- Whether a token begins where the one before it ends. -/
def touches (before : Option Token) (t : Token) : Bool :=
  before.any fun b => b.span.stop.offset == t.span.start.offset

/-- Tokens that are written as others are, behind a token each, and touch each other as they do. -/
inductive Retold : Option Token → Option Token → List Token → List Token → Prop
  | nil {before before' : Option Token} : Retold before before' [] []
  | cons {before before' : Option Token} {t t' : Token} {tokens tokens' : List Token}
      (hbare : t.bare = t'.bare) (htouches : t.touches before = t'.touches before')
      (later : Retold (some t) (some t') tokens tokens') :
      Retold before before' (t :: tokens) (t' :: tokens')

theorem Retold.map_bare {before before' : Option Token} {tokens tokens' : List Token}
    (h : Retold before before' tokens tokens') : tokens.map bare = tokens'.map bare := by
  induction h with
  | nil => rfl
  | cons hbare _ _ ih => rw [List.map_cons, List.map_cons, hbare, ih]

end Token

open Token (joinFrom Retold)

/-- Where a text begins with a point, a token does. -/
theorem Lexed.point {offset : Nat} {text : List Char} {tokens : List Token}
    (h : Lexed offset ('.' :: text) tokens) :
    ∃ t later part rest, tokens = t :: later ∧ t.span.start.offset = offset ∧
      t.text.toList = '.' :: part ∧ text = part ++ rest ∧ Lexed t.span.stop.offset rest later := by
  generalize hwhole : '.' :: text = whole at h
  cases h with
  | nil h =>
      subst hwhole
      exact absurd rfl h
  | @cons _ gap part rest c _ t later hgap hlexeme _ _ htext hstart hlater =>
      cases gap with
      | cons d gap =>
          obtain ⟨rfl, -⟩ := List.cons.inj hwhole
          exact absurd rfl hgap
      | nil =>
          obtain ⟨rfl, rfl⟩ := List.cons.inj hwhole
          exact ⟨t, later, part, rest, rfl, hstart, htext, rfl, hlater⟩

/-- A token that touches what is in front of it is written without a blank. -/
theorem Token.joinFrom_touching {offset : Nat} {t : Token} (h : t.span.start.offset = offset)
    (tokens : List Token) :
    (joinFrom offset (t :: tokens)).toList =
      t.text.toList ++ (joinFrom t.span.stop.offset tokens).toList := by
  rw [joinFrom, if_neg (by omega)]
  simp

/-- Where the source has a gap, a token is written behind a blank. -/
theorem Token.joinFrom_apart {offset : Nat} {t : Token} (h : offset < t.span.start.offset)
    (tokens : List Token) :
    (joinFrom offset (t :: tokens)).toList =
      ' ' :: (t.text.toList ++ (joinFrom t.span.stop.offset tokens).toList) := by
  rw [joinFrom, if_pos h]
  simp

/-- What is written for tokens goes on as the source does, up to the first gap. -/
theorem Lexed.follows {offset : Nat} {text : List Char} {tokens after : List Token}
    (h : Lexed offset text (tokens ++ after)) : Follows text (joinFrom offset tokens).toList := by
  induction tokens generalizing offset text with
  | nil => exact .nil
  | cons t tokens ih =>
      cases h with
      | @cons _ gap part rest c _ _ _ _ _ _ _ htext hstart hlater =>
          cases gap with
          | nil =>
              rw [Token.joinFrom_touching (hstart.trans (Nat.add_zero _)), htext]
              exact (ih hlater).append (c :: part)
          | cons d gap =>
              have hpos : 0 < d.utf8Size := Char.utf8Size_pos d
              rw [Text.byteLength_cons] at hstart
              rw [Token.joinFrom_apart (by omega)]
              exact .blank

/-- The tokens are not cut off in front of a point. -/
def EndsPlain (after : List Token) : Prop :=
  ∀ t, after.head? = some t → t.text.toList.head? ≠ some '.'

/-- Tokens are not cut off between two points: no point follows, or they do not end with one. -/
def CutPlain (tokens after : List Token) : Prop :=
  EndsPlain after ∨ ∀ t, tokens.getLast? = some t → t.is "." = false

/-- What is cut off behind a token is cut off behind the tokens that follow it. -/
theorem CutPlain.tail {t : Token} {tokens after : List Token} (h : CutPlain (t :: tokens) after) :
    CutPlain tokens after := by
  refine h.imp id fun hlast u hu => hlast u ?_
  rw [List.getLast?_cons, hu]
  rfl

/-- A point that another one follows and that is no part of a longer token is an operator. -/
theorem Lexeme.kind_of_points {kind : Lexeme.Kind} {text : List Char} {extra : Nat}
    (hwhole : kind.isWhole = true) (h : atHead '.' ('.' :: text) = ⟨kind, extra⟩) :
    kind = .operator := by
  have hblank : Text.isBlank '.' = false := by decide
  have hdigit : Text.isAsciiDigit '.' = false := by decide
  have hword : isWordStart '.' = false := by decide
  simp only [atHead, hblank, hdigit, hword, List.head?_cons, Option.any_some, Bool.and_false,
    Bool.or_false, Bool.false_eq_true, if_false, Char.reduceEq, false_and] at h
  split at h
  · exact (Lexeme.mk.inj h).1.symm
  · obtain ⟨rfl, -⟩ := Lexeme.mk.inj h
    cases hwhole

/-- A token that is a point, in front of another point, is the operator. -/
theorem Lexed.is_point {offset : Nat} {text : List Char} {t : Token} {tokens : List Token}
    (h : Lexed offset ('.' :: '.' :: text) (t :: tokens)) (ht : t.text.toList = ['.']) :
    t.is "." = true := by
  generalize hwhole : '.' :: '.' :: text = whole at h
  cases h with
  | @cons _ gap part rest c kind _ _ hgap hlexeme hsort hkind htext =>
      cases gap with
      | cons d gap =>
          obtain ⟨rfl, -⟩ := List.cons.inj hwhole
          exact absurd rfl hgap
      | nil =>
          rw [ht] at htext
          obtain ⟨rfl, rfl⟩ := List.cons.inj htext
          obtain ⟨-, rfl⟩ := List.cons.inj hwhole
          obtain rfl := Lexeme.kind_of_points hsort hlexeme
          have hoperator : Token.Kind.operator = t.kind := Option.some.inj hkind
          have hpoint : t.text = "." := String.toList_inj.1 ht
          simp [Token.is, ← hoperator, hpoint]

/-- Two points in a row are both written, or none of them. -/
theorem Lexed.points {offset : Nat} {text : List Char} {tokens after : List Token}
    (h : Lexed offset text (tokens ++ after)) (hcut : CutPlain tokens after)
    (hpoints : ['.', '.'] <+: text)
    (hhead : (joinFrom offset tokens).toList.head? = some '.') :
    ['.', '.'] <+: (joinFrom offset tokens).toList := by
  obtain ⟨rest, rfl⟩ := hpoints
  cases tokens with
  | nil => cases hhead
  | cons t tokens =>
      obtain ⟨_, _, part, behind, hcons, hstart, htext, hrest, hlater⟩ := h.point
      obtain ⟨rfl, rfl⟩ := List.cons.inj hcons
      rw [Token.joinFrom_touching hstart, htext]
      cases part with
      | cons d part =>
          obtain ⟨rfl, -⟩ := List.cons.inj hrest
          simp
      | nil =>
          -- The first point is a token of its own, and so the second one begins the next token.
          rw [List.nil_append] at hrest
          subst hrest
          obtain ⟨u, later, part, _, hnext, hstart', htext', -, -⟩ := hlater.point
          cases tokens with
          | nil =>
              rcases hcut with hafter | hlast
              · refine absurd ?_ (hafter u (by rw [show after = u :: later from hnext]; rfl))
                rw [htext']
                rfl
              · have his := h.is_point htext
                rw [hlast t rfl] at his
                cases his
          | cons u' tokens =>
              obtain ⟨rfl, -⟩ := List.cons.inj hnext
              rw [Token.joinFrom_touching hstart', htext']
              simp

/-- A token with which nothing is wrong, at the head of a text. -/
theorem Scan.ofChars_token (p : Position) {c : Char} {part text : List Char} {kind : Lexeme.Kind}
    {t : Token} (hlexeme : Lexeme.atHead c (part ++ text) = ⟨kind, part.length⟩)
    (hwhole : kind.isWhole = true) (hkind : Lexeme.tokenKind? kind (c :: part) = some t.kind)
    (htext : t.text.toList = c :: part) :
    ∃ span, span.start = p ∧
      (ofChars p (c :: (part ++ text))).tokens =
        { t with span } :: (ofChars span.stop text).tokens ∧
      (ofChars p (c :: (part ++ text))).errors = (ofChars span.stop text).errors := by
  obtain ⟨hsort, hpart, hscan⟩ := ofChars_lexeme p hlexeme
  have htoken : (Piece.atHead p c (part ++ text)).token? =
      some { t with span := (Piece.atHead p c (part ++ text)).span } := by
    have hsame : (Piece.atHead p c (part ++ text)).tokenKind? = some t.kind := by
      rw [← hkind, Lexeme.tokenKind?, Piece.tokenKind?, Piece.tokenKind?, hsort, hpart]
    rw [Piece.token?, hsame, hpart, ← htext, Option.map_some, String.ofList_toList]
  have herror : (Piece.atHead p c (part ++ text)).error? = none := by
    rw [Piece.error?, hsort]
    cases kind with
    | string closed => cases hwhole; rfl
    | character closed => cases hwhole; rfl
    | number => rfl
    | word => rfl
    | operator => rfl
    | blank => cases hwhole
    | lineComment => cases hwhole
    | blockComment _ => cases hwhole
    | unknown => cases hwhole
  refine ⟨(Piece.atHead p c (part ++ text)).span, rfl, ?_, ?_⟩
  · rw [hscan, htoken]
    rfl
  · rw [hscan, herror]
    rfl

/-- One blank at the head of a text. -/
theorem Scan.ofChars_blank (p : Position) (text : List Char) :
    ∃ q : Position, q.offset = p.offset + 1 ∧
      (ofChars p (' ' :: text)).tokens = (ofChars q text).tokens ∧
      (ofChars p (' ' :: text)).errors = (ofChars q text).errors := by
  have hlexeme : Lexeme.atHead ' ' ([] ++ text) = ⟨.blank, ([] : List Char).length⟩ := by
    rw [Lexeme.atHead, if_pos (by decide)]
    rfl
  have hhead := ofChars_lexeme p hlexeme
  simp only [List.nil_append] at hhead
  obtain ⟨hsort, hpart, hscan⟩ := hhead
  refine ⟨(Piece.atHead p ' ' text).span.stop, ?_, ?_, ?_⟩
  · have hstop : (Piece.atHead p ' ' text).span.stop.offset =
        p.offset + Text.byteLength (Piece.atHead p ' ' text).text := Position.offset_pastAll _ _ _
    rw [hstop, hpart]
    rfl
  · simp [hscan, Piece.token?, Piece.tokenKind?, hsort]
  · simp [hscan, Piece.error?, hsort]

/-- What is written for tokens is scanned from the first of them on, behind a blank if it touches
nothing. -/
theorem Scan.ofChars_joinFrom (p : Position) {offset : Nat} {t : Token}
    (h : offset ≤ t.span.start.offset) (tokens : List Token) (behind : List Char) :
    ∃ q : Position, (p.offset = q.offset ↔ offset = t.span.start.offset) ∧
      let text := t.text.toList ++ ((joinFrom t.span.stop.offset tokens).toList ++ behind)
      (ofChars p ((joinFrom offset (t :: tokens)).toList ++ behind)).tokens =
          (ofChars q text).tokens ∧
        (ofChars p ((joinFrom offset (t :: tokens)).toList ++ behind)).errors =
          (ofChars q text).errors := by
  rcases Nat.eq_or_lt_of_le h with htouching | happart
  · rw [Token.joinFrom_touching htouching.symm, List.append_assoc]
    exact ⟨p, by simp [htouching], rfl, rfl⟩
  · rw [Token.joinFrom_apart happart, List.cons_append, List.append_assoc]
    obtain ⟨q, hq, hscan⟩ := ofChars_blank p
      (t.text.toList ++ ((joinFrom t.span.stop.offset tokens).toList ++ behind))
    exact ⟨q, by omega, hscan⟩

/-- **Tokens that are written side by side are read again**, with nothing behind them or a comma. -/
theorem relex_joinFrom_atComma {offset : Nat} {text : List Char} {tokens after : List Token}
    (h : Lexed offset text (tokens ++ after)) (hcut : CutPlain tokens after) {behind : List Char}
    (hbehind : Text.AtComma behind) (p : Position) {before before' : Option Token}
    (hbefore : (before = none ∧ before' = none) ∨ ∃ b b', before = some b ∧ before' = some b' ∧
      b.span.stop.offset = offset ∧ b'.span.stop.offset = p.offset) :
    ∃ again q, Retold before before' tokens again ∧
      (Scan.ofChars p ((joinFrom offset tokens).toList ++ behind)).tokens =
        again ++ (Scan.ofChars q behind).tokens ∧
      (Scan.ofChars p ((joinFrom offset tokens).toList ++ behind)).errors =
        (Scan.ofChars q behind).errors := by
  induction tokens generalizing offset text p before before' with
  | nil => exact ⟨[], p, .nil, rfl, rfl⟩
  | cons t tokens ih =>
      cases h with
      | @cons _ gap part rest c kind _ _ _ hlexeme hwhole hkind htext hstart hlater =>
          have hlater : Lexed t.span.stop.offset rest (tokens ++ after) := hlater
          -- In its new surroundings the token is the lexeme at the head as well.
          have hlexeme' := Lexeme.atHead_follows hlater.follows hwhole
            (fun _ => hlater.points hcut.tail) hlexeme
          have hlexeme' := Lexeme.atHead_atComma hbehind hwhole hlexeme'
          have hle : offset ≤ t.span.start.offset := by omega
          obtain ⟨q, hq, htokens, herrors⟩ := Scan.ofChars_joinFrom p hle tokens behind
          obtain ⟨span, hspan, htokens', herrors'⟩ :=
            Scan.ofChars_token q hlexeme' hwhole hkind htext
          obtain ⟨again, q', hretold, hagain, hnone⟩ := ih hlater hcut.tail span.stop
            (.inr ⟨t, { t with span }, rfl, rfl, rfl, rfl⟩)
          rw [htext, List.cons_append] at htokens herrors
          refine ⟨{ t with span } :: again, q', .cons rfl ?_ hretold, ?_, ?_⟩
          · rcases hbefore with ⟨rfl, rfl⟩ | ⟨b, b', rfl, rfl, hb, hb'⟩
            · rfl
            · rw [Token.touches, Token.touches, Option.any_some, Option.any_some, hb, hb', hspan,
                Bool.eq_iff_iff, beq_iff_eq, beq_iff_eq, hq]
          · rw [htokens, htokens', hagain, List.cons_append]
          · rw [herrors, herrors', hnone]

/-- Tokens that are written side by side are read again by themselves. -/
theorem relex_joinFrom {offset : Nat} {text : List Char} {tokens after : List Token}
    (h : Lexed offset text (tokens ++ after)) (hcut : CutPlain tokens after) (p : Position)
    {before before' : Option Token}
    (hbefore : (before = none ∧ before' = none) ∨ ∃ b b', before = some b ∧ before' = some b' ∧
      b.span.stop.offset = offset ∧ b'.span.stop.offset = p.offset) :
    (Scan.ofChars p (joinFrom offset tokens).toList).errors = [] ∧
      Retold before before' tokens (Scan.ofChars p (joinFrom offset tokens).toList).tokens := by
  have hempty : Text.AtComma [] := nofun
  obtain ⟨again, q, hretold, htokens, herrors⟩ :=
    relex_joinFrom_atComma h hcut hempty p hbefore
  have hnone : (Scan.ofChars q []).tokens = [] ∧ (Scan.ofChars q []).errors = [] := ⟨rfl, rfl⟩
  rw [List.append_nil, hnone.1, List.append_nil] at htokens
  rw [List.append_nil, hnone.2] at herrors
  rw [htokens]
  exact ⟨herrors, hretold⟩

/-! ### The sort of an expression -/

namespace Token

/-- What can be asked about a token without its place. -/
theorem is_congr {t t' : Token} (h : t.bare = t'.bare) (text : String) : t.is text = t'.is text :=
  congrArg (·.is text) h

end Token

/-- What is looked at in a top-level token: its number, the token without its place, and whether it
assigns. -/
def TopToken.view (top : TopToken) : Nat × Token × Bool := (top.index, top.token.bare, top.assigns)

/-- A list of type arguments is found without the places of its tokens. -/
theorem typeArgumentsLength?_bare (depth : Nat) (tokens : List Token) :
    typeArgumentsLength? depth (tokens.map Token.bare) = typeArgumentsLength? depth tokens := by
  induction tokens generalizing depth with
  | nil => rfl
  | cons t tokens ih =>
      rw [List.map_cons, typeArgumentsLength?, typeArgumentsLength?, ih, ih, ih]
      rfl

/-- Whether a top-level token assigns is told by the token in front of it, and by whether they touch. -/
theorem TopToken.assigns_congr {before before' : Option Token} {t t' : Token}
    (hbefore : before.map Token.bare = before'.map Token.bare) (hbare : t.bare = t'.bare)
    (htouches : t.touches before = t'.touches before') (index : Nat) :
    TopToken.assigns ⟨index, before, t⟩ = TopToken.assigns ⟨index, before', t'⟩ := by
  have hplain : t.isAny assignmentOperators = t'.isAny assignmentOperators :=
    congrArg (·.isAny assignmentOperators) hbare
  rw [assigns, assigns]
  simp only [hplain, Token.is_congr hbare]
  cases before with
  | none =>
      cases before' with
      | none => rfl
      | some b' => cases hbefore
  | some b =>
      cases before' with
      | none => cases hbefore
      | some b' =>
          have hb : b.is ">" = b'.is ">" := Token.is_congr (Option.some.inj hbefore) ">"
          simp only [Token.touches, Option.any_some] at htouches
          simp only [Option.any_some, hb, htouches]

/-- The top level of tokens that are written as others are and touch each other as they do. -/
theorem topLevelFrom_retold {before before' : Option Token} {tokens tokens' : List Token}
    (h : Retold before before' tokens tokens')
    (hbefore : before.map Token.bare = before'.map Token.bare) (index depth skip : Nat) :
    (topLevelFrom index depth skip before tokens).map TopToken.view =
      (topLevelFrom index depth skip before' tokens').map TopToken.view := by
  induction h generalizing index depth skip with
  | nil => rfl
  | @cons before before' t t' tokens tokens' hbare htouches later ih =>
      have hlater := ih (congrArg some hbare)
      have hview : TopToken.view ⟨index, before, t⟩ = TopToken.view ⟨index, before', t'⟩ := by
        simp only [TopToken.view, hbare, TopToken.assigns_congr hbefore hbare htouches]
      cases skip with
      | succ skip => exact hlater (index + 1) depth skip
      | zero =>
          have hopens : t.bare.opens = t'.bare.opens := congrArg Token.opens hbare
          have hcloses : t.bare.closes = t'.bare.closes := congrArg Token.closes hbare
          change t.opens = t'.opens at hopens
          change t.closes = t'.closes at hcloses
          have harguments : typeArgumentsLength? 0 (t :: tokens) =
              typeArgumentsLength? 0 (t' :: tokens') := by
            rw [← typeArgumentsLength?_bare, ← typeArgumentsLength?_bare 0 (t' :: tokens'),
              List.map_cons, List.map_cons, hbare, later.map_bare]
          rw [topLevelFrom, topLevelFrom, hopens, hcloses, harguments, Token.is_congr hbare]
          split
          · split
            · rw [List.map_cons, List.map_cons, hview, hlater]
            · exact hlater _ _ _
          · split
            · split
              · rw [List.map_cons, List.map_cons, hview, hlater]
              · exact hlater _ _ _
            · split
              · split
                · exact hlater _ _ _
                · rw [List.map_cons, List.map_cons, hview, hlater]
              · exact hlater _ _ _

/-- A top-level token without its place. -/
def TopToken.bare (top : TopToken) : TopToken :=
  { index := top.index, previous := none, token := top.token.bare }

/-- Operators between operands are found without the places of tokens. -/
theorem hasBinaryOperator_bare (before : Option Token) (tops : List TopToken) :
    hasBinaryOperator (before.map Token.bare) (tops.map TopToken.bare) =
      hasBinaryOperator before tops := by
  induction tops generalizing before with
  | nil => rfl
  | cons top tops ih =>
      have hlater := ih (some top.token)
      rw [List.map_cons, hasBinaryOperator, hasBinaryOperator, ← hlater]
      cases before <;> rfl

/-- What a parenthesis decides is found without the places of tokens. -/
theorem parenthesisKind?_bare (tokens : List Token) (tops : List TopToken) :
    parenthesisKind? (tokens.map Token.bare) (tops.map TopToken.bare) =
      parenthesisKind? tokens tops := by
  have hfind : (tops.map TopToken.bare).find? (fun top => 0 < top.index && top.token.is ")") =
      (tops.find? fun top => 0 < top.index && top.token.is ")").map TopToken.bare := by
    rw [List.find?_map]
    rfl
  have hcast (inner : List Token) (next : Option Token) :
      looksLikeCast (inner.map Token.bare) (next.map Token.bare) = looksLikeCast inner next := by
    have hall : (inner.map Token.bare).all isCastPart = inner.all isCastPart := by
      rw [List.all_map]
      rfl
    have hnext : (next.map Token.bare).any startsOperand = next.any startsOperand := by
      cases next <;> rfl
    simp only [looksLikeCast, hall, hnext, List.isEmpty_map]
  unfold parenthesisKind?
  rw [hfind]
  cases tops.find? fun top => 0 < top.index && top.token.is ")" with
  | none => rfl
  | some close =>
      simp only [Option.map_some, List.length_map, ← List.map_take, ← List.map_drop,
        List.getElem?_map, hcast]
      rfl

/-- The sort of an expression by its last tokens is found without their places. -/
theorem endingKind_bare (tokens : List Token) :
    endingKind (tokens.map Token.bare) = endingKind tokens := by
  have hall : (tokens.map Token.bare).all (fun t => t.isIdentifier || t.isAny [".", "this", "super"]) =
      tokens.all fun t => t.isIdentifier || t.isAny [".", "this", "super"] := by
    rw [List.all_map]
    rfl
  unfold endingKind
  rw [hall, ← List.map_reverse]
  cases tokens.reverse with
  | nil => rfl
  | cons last rest =>
      have hhead : (rest.map Token.bare).head?.any (·.is ".") = rest.head?.any (·.is ".") := by
        cases rest <;> rfl
      simp only [List.map_cons, hhead]
      rfl

/-- **Tokens that are written as others are and touch each other as they do make an expression of the
same sort.** -/
theorem Expression.Kind.ofTokens_retold {first first' : Token} {rest rest' : List Token}
    (h : Retold none none (first :: rest) (first' :: rest')) :
    Expression.Kind.ofTokens first rest = Expression.Kind.ofTokens first' rest' := by
  have hviews := topLevelFrom_retold h rfl 0 0 0
  have htokens := h.map_bare
  obtain ⟨hfirst, hrest⟩ := List.cons.inj htokens
  change (topLevel (first :: rest)).map TopToken.view =
    (topLevel (first' :: rest')).map TopToken.view at hviews
  have hbare : (topLevel (first :: rest)).map TopToken.bare =
      (topLevel (first' :: rest')).map TopToken.bare := by
    have hmap := congrArg (List.map fun view =>
      ({ index := view.1, previous := none, token := view.2.1 } : TopToken)) hviews
    rw [List.map_map, List.map_map] at hmap
    exact hmap
  have hassigns : (topLevel (first :: rest)).any TopToken.assigns =
      (topLevel (first' :: rest')).any TopToken.assigns := by
    simpa [List.any_map, Function.comp_def, TopToken.view] using
      congrArg (List.any · fun view => view.2.2) hviews
  have hhas (text : String) : ((topLevel (first :: rest)).any fun top => top.token.is text) =
      (topLevel (first' :: rest')).any fun top => top.token.is text := by
    have hany := congrArg (List.any · fun top => top.token.is text) hbare
    rw [List.any_map, List.any_map] at hany
    exact hany
  have hbinary : hasBinaryOperator none (topLevel (first :: rest)) =
      hasBinaryOperator none (topLevel (first' :: rest')) := by
    rw [← hasBinaryOperator_bare, ← hasBinaryOperator_bare none (topLevel (first' :: rest')), hbare]
  have hparenthesis : parenthesisKind? (first :: rest) (topLevel (first :: rest)) =
      parenthesisKind? (first' :: rest') (topLevel (first' :: rest')) := by
    rw [← parenthesisKind?_bare, htokens, hbare, parenthesisKind?_bare]
  have hlast : (rest.getLastD first).isAny ["++", "--"] =
      (rest'.getLastD first').isAny ["++", "--"] := by
    have hbare (first : Token) (rest : List Token) :
        (rest.map Token.bare).getLastD first.bare = (rest.getLastD first).bare := by
      rw [List.getLastD_eq_getLast?, List.getLastD_eq_getLast?, List.getLast?_map,
        Option.getD_map]
    have hsame : (rest.getLastD first).bare = (rest'.getLastD first').bare := by
      rw [← hbare, ← hbare, hrest, hfirst]
    exact congrArg (·.isAny ["++", "--"]) hsame
  have hunary : first.isAny unaryOperators = first'.isAny unaryOperators :=
    congrArg (·.isAny unaryOperators) hfirst
  have hempty : rest.isEmpty = rest'.isEmpty := by
    rw [← List.isEmpty_map (f := Token.bare), hrest, List.isEmpty_map]
  have hsingle : singleTokenKind first.bare = singleTokenKind first'.bare :=
    congrArg singleTokenKind hfirst
  change singleTokenKind first = singleTokenKind first' at hsingle
  have hending : endingKind (first :: rest) = endingKind (first' :: rest') := by
    rw [← endingKind_bare, htokens, endingKind_bare]
  unfold Expression.Kind.ofTokens
  simp only [hhas, hassigns, hbinary, hparenthesis, hlast, hunary, hempty, hsingle, hending,
    Token.is_congr hfirst]

end JavaOutline
