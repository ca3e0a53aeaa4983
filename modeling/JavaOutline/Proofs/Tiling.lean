/-
**How a scan tiles its source.**

A source is cut into pieces that lie side by side.  So the tokens of a scan stand in the source as
they were written, each behind the one in front of it, and what is left between them are blanks,
comments and characters that begin no lexeme, each of which has an error of its own.  Lines end where
the source says, and wherever a token or an error begins or ends, the position tells the line and the
column of that place.

Main definitions:

* `Lexeme.Shape` — what stands at the head of a text, if it is no token;
* `Span.Covers` — a span covers a part of a source;
* `Gap` — what may stand between tokens;
* `Tiled` — gaps and tokens in turn make up a text;
* `Scan.Tiles` — what a scan says of its source.

Main results:

* `pieces_cons`, `pieces_induct` — the pieces of a text, one by one;
* `Piece.covers` — every piece covers its part of the source;
* `tiled_ofChars` — gaps and tokens in turn make up the source;
* `scan_tiles` — **the scan of a source tiles it**.
-/

import JavaOutline.Proofs.SourcePlaces
import JavaOutline.Proofs.TokenOrder

set_option autoImplicit false

namespace JavaOutline

/-! ### The pieces of a text, one by one -/

/-- What the piece at the head leaves of a text. -/
theorem Piece.drop_text_atHead (p : Position) (c : Char) (text : List Char) :
    text.drop ((Piece.atHead p c text).text.length - 1) =
      text.drop (Lexeme.atHead c text).extra := by
  rw [Piece.length_text_atHead]
  rcases Nat.le_total (Lexeme.atHead c text).extra text.length with h | h
  · rw [Nat.min_eq_left h]
  · rw [Nat.min_eq_right h, List.drop_length, List.drop_eq_nil_of_le h]

/-- Pieces that were found already stay behind those that are found. -/
theorem piecesLoop_found (fuel : Nat) (p : Position) (text : List Char) (found : List Piece) :
    piecesLoop fuel p text found =
      ((piecesLoop fuel p text []).1 ++ found, (piecesLoop fuel p text []).2) := by
  induction fuel generalizing p text found with
  | zero => rfl
  | succ fuel ih =>
      cases text with
      | nil => rfl
      | cons c text =>
          rw [piecesLoop, ih, piecesLoop, ih _ _ [Piece.atHead p c text], List.append_assoc]
          rfl

/-- Fuel for all characters of a text is enough, and how much more there is changes nothing. -/
theorem piecesLoop_fuel {fuel other : Nat} {p : Position} {text : List Char}
    (h : text.length ≤ fuel) (h' : text.length ≤ other) :
    piecesLoop fuel p text [] = piecesLoop other p text [] := by
  induction fuel generalizing other p text with
  | zero =>
      obtain rfl : text = [] := List.length_eq_zero_iff.1 (Nat.le_zero.1 h)
      cases other <;> rfl
  | succ fuel ih =>
      cases text with
      | nil => cases other <;> rfl
      | cons c text =>
          obtain ⟨other, rfl⟩ : ∃ less, other = less + 1 :=
            ⟨other - 1, by rw [List.length_cons] at h'; omega⟩
          rw [List.length_cons] at h h'
          have hrest : (text.drop ((Piece.atHead p c text).text.length - 1)).length ≤ text.length :=
            (List.drop_sublist _ _).length_le
          have hsame := ih (p := (Piece.atHead p c text).span.stop)
            (Nat.le_trans hrest (Nat.le_of_succ_le_succ h))
            (Nat.le_trans hrest (Nat.le_of_succ_le_succ h'))
          rw [piecesLoop, piecesLoop, piecesLoop_found, piecesLoop_found other, hsame]

/-- The first piece of a text, and then those of what it leaves. -/
theorem pieces_cons (p : Position) (c : Char) (text : List Char) :
    pieces p (c :: text) =
      let piece := Piece.atHead p c text
      let later := pieces piece.span.stop (text.drop (Lexeme.atHead c text).extra)
      (piece :: later.1, later.2) := by
  have hrest : (text.drop (Lexeme.atHead c text).extra).length ≤ text.length :=
    (List.drop_sublist _ _).length_le
  simp only [pieces, List.length_cons, piecesLoop]
  rw [Piece.drop_text_atHead, piecesLoop_found, piecesLoop_fuel hrest (Nat.le_refl _)]
  simp

/-- Induction over the pieces of a text. -/
theorem pieces_induct {motive : Position → List Char → Prop} (nil : ∀ p, motive p [])
    (cons : ∀ p c text, motive (Piece.atHead p c text).span.stop
      (text.drop (Lexeme.atHead c text).extra) → motive p (c :: text))
    (p : Position) (text : List Char) : motive p text := by
  generalize hlength : text.length = length
  induction length using Nat.strongRecOn generalizing p text with
  | ind length ih =>
      cases text with
      | nil => exact nil p
      | cons c text =>
          refine cons p c text (ih _ ?_ _ _ rfl)
          rw [← hlength, List.length_cons]
          exact Nat.lt_succ_of_le (List.drop_sublist _ _).length_le

/-- The scan of a text, piece by piece. -/
theorem Scan.ofChars_cons (p : Position) (c : Char) (text : List Char) :
    ofChars p (c :: text) =
      let piece := Piece.atHead p c text
      let later := ofChars piece.span.stop (text.drop (Lexeme.atHead c text).extra)
      { tokens := piece.token?.toList ++ later.tokens
        finish := later.finish
        separators := piece.separators ++ later.separators
        errors := piece.error?.toList ++ later.errors } := by
  simp only [ofChars, pieces_cons]
  cases htoken : (Piece.atHead p c text).token? <;>
    cases herror : (Piece.atHead p c text).error? <;>
    simp [htoken, herror]

/-! ### Places of pieces -/

/-- The first piece and what it leaves make up the text. -/
theorem Piece.text_append_drop (p : Position) (c : Char) (text : List Char) :
    (Piece.atHead p c text).text ++ text.drop (Lexeme.atHead c text).extra = c :: text := by
  rw [← Piece.drop_text_atHead p, Piece.text_atHead_append]

/-- A scan ends where walking over the text does. -/
theorem Scan.finish_ofChars (p : Position) (text : List Char) :
    (ofChars p text).finish = p.pastAll text none := by
  induction p, text using pieces_induct with
  | nil p => rfl
  | cons p c text ih =>
      rw [ofChars_cons]
      conv_rhs => rw [← Piece.text_append_drop p, Position.pastAll_append, Option.or_none]
      exact ih

/-- A scan finds the separators that walking over the text does. -/
theorem Scan.separators_ofChars (p : Position) (text : List Char) :
    (ofChars p text).separators = p.separatorsIn text none := by
  induction p, text using pieces_induct with
  | nil p => rfl
  | cons p c text ih =>
      rw [ofChars_cons]
      conv_rhs => rw [← Piece.text_append_drop p, Position.separatorsIn_append, Option.or_none]
      exact congrArg (_ ++ ·) ih

/-- A span covers a part of a text that begins at a position. -/
def Span.Covers (span : Span) (p : Position) (text part : List Char) : Prop :=
  ∃ front back, text = front ++ (part ++ back) ∧
    span.start = p.pastAll front (part ++ back).head? ∧
    span.stop = p.pastAll (front ++ part) back.head?

/-- Every piece has characters and covers its part of the text. -/
theorem Piece.covers (p : Position) (text : List Char) :
    ∀ piece ∈ (pieces p text).1, piece.text ≠ [] ∧ piece.span.Covers p text piece.text := by
  induction p, text using pieces_induct with
  | nil p => exact nofun
  | cons p c text ih =>
      intro piece hpiece
      rw [pieces_cons] at hpiece
      rcases List.mem_cons.1 hpiece with rfl | hlater
      · exact ⟨nofun, [], _, (Piece.text_append_drop p c text).symm, rfl, rfl⟩
      · obtain ⟨hne, front, back, htext, hstart, hstop⟩ := ih piece hlater
        have hhead : (text.drop (Lexeme.atHead c text).extra).head? =
            (front ++ (piece.text ++ back)).head? := congrArg List.head? htext
        refine ⟨hne, (Piece.atHead p c text).text ++ front, back, ?_, ?_, ?_⟩
        · rw [List.append_assoc, ← htext, Piece.text_append_drop]
        · rw [Position.pastAll_append, hstart]
          simp only [Piece.atHead, hhead]
          cases front <;> simp
        · rw [List.append_assoc, Position.pastAll_append, hstop]
          simp only [Piece.atHead, hhead]
          obtain ⟨d, part, hpart⟩ := List.exists_cons_of_ne_nil hne
          cases front <;> simp [hpart]

/-! ### What stands between tokens -/

namespace Lexeme

/-- Whether a lexeme is a token. -/
def Kind.isToken : Kind → Bool
  | .string _ | .character _ | .number | .word | .operator => true
  | .blank | .lineComment | .blockComment _ | .unknown => false

/-- What stands at the head of a text, if it is no token: a blank, a comment up to the end of its
line, a comment up to the first mark that closes it or else to the end of the text, or a character
that begins nothing. -/
inductive Shape : Char → List Char → Lexeme → Prop
  | token {c : Char} {text : List Char} {lexeme : Lexeme} (h : lexeme.kind.isToken = true) :
      Shape c text lexeme
  | blank {c : Char} {text : List Char} (h : Text.isBlank c = true) : Shape c text ⟨.blank, 0⟩
  | lineComment {body rest : List Char} (hbody : ∀ d ∈ body, isLineEnd d = false)
      (hrest : rest.head?.all isLineEnd = true) :
      Shape '/' ('/' :: (body ++ rest)) ⟨.lineComment, body.length + 1⟩
  | closedComment {body rest : List Char} (hbody : ¬ ['*', '/'] <:+: body) :
      Shape '/' ('*' :: (body ++ '*' :: '/' :: rest)) ⟨.blockComment true, body.length + 3⟩
  | openComment {body : List Char} (hbody : ¬ ['*', '/'] <:+: body) :
      Shape '/' ('*' :: body) ⟨.blockComment false, body.length + 1⟩
  | unknown {c : Char} {text : List Char} : Shape c text ⟨.unknown, 0⟩

/-- A comment reaches up to the first mark that closes it, or else to the end of the text. -/
theorem commentTail_cases (count : Nat) (text : List Char) :
    (∃ body rest, text = body ++ '*' :: '/' :: rest ∧ ¬ ['*', '/'] <:+: body ∧
      commentTail count text = (count + body.length + 2, true)) ∨
    (¬ ['*', '/'] <:+: text ∧ commentTail count text = (count + text.length, false)) := by
  fun_induction commentTail count text with
  | case1 count => exact .inr ⟨by simp, rfl⟩
  | case2 count rest => exact .inl ⟨[], rest, rfl, by simp, rfl⟩
  | case3 count c text hopen ih =>
      -- The mark does not stand at the head here, so it closes what follows or nothing.
      have hinside {body : List Char} (hbody : ¬ ['*', '/'] <:+: body)
          (hhead : ∀ d, body.head? = some d → text.head? = some d) :
          ¬ ['*', '/'] <:+: c :: body := by
        rw [List.infix_cons_iff]
        rintro (hstart | hlater)
        · obtain ⟨back, hback⟩ := hstart
          obtain ⟨rfl, rfl⟩ := List.cons.inj hback
          have hslash := hhead '/' rfl
          obtain ⟨rest, rfl⟩ := List.head?_eq_some_iff.1 hslash
          exact hopen rest rfl rfl
        · exact hbody hlater
      rcases ih with ⟨body, rest, rfl, hbody, htail⟩ | ⟨hbody, htail⟩
      · refine .inl ⟨c :: body, rest, rfl, hinside hbody ?_, ?_⟩
        · intro d hd
          rw [List.head?_append, hd]
          rfl
        · rw [htail, List.length_cons]
          simp only [Prod.mk.injEq, and_true]
          omega
      · refine .inr ⟨hinside hbody fun d hd => hd, ?_⟩
        rw [htail, List.length_cons]
        simp only [Prod.mk.injEq, and_true]
        omega

/-- What stands at the head of a text. -/
theorem shape_atHead (c : Char) (text : List Char) : Shape c text (atHead c text) := by
  unfold atHead
  by_cases hblank : Text.isBlank c = true
  · rw [if_pos hblank]
    exact .blank hblank
  rw [if_neg hblank]
  by_cases hline : c = '/' ∧ text.head? = some '/'
  · rw [if_pos hline]
    obtain ⟨rfl, hslash⟩ := hline
    obtain ⟨text, rfl⟩ := List.head?_eq_some_iff.1 hslash
    have hcut : text.takeWhile (fun d => !isLineEnd d) ++ text.dropWhile (fun d => !isLineEnd d) =
      text := List.takeWhile_append_dropWhile
    have hshape := @Shape.lineComment (text.takeWhile fun d => !isLineEnd d)
      (text.dropWhile fun d => !isLineEnd d)
      (fun d hd => by simpa using List.all_eq_true.1 List.all_takeWhile d hd) (by
        have := List.head?_dropWhile_not (fun d => !isLineEnd d) text
        revert this
        cases (text.dropWhile fun d => !isLineEnd d).head? <;> simp)
    rw [hcut] at hshape
    simpa [List.takeWhile_cons, isLineEnd] using hshape
  rw [if_neg hline]
  by_cases hcomment : c = '/' ∧ text.head? = some '*'
  · rw [if_pos hcomment]
    obtain ⟨rfl, hstar⟩ := hcomment
    obtain ⟨text, rfl⟩ := List.head?_eq_some_iff.1 hstar
    rcases commentTail_cases 1 text with ⟨body, rest, rfl, hbody, htail⟩ | ⟨hbody, htail⟩
    · have hcount : 1 + body.length + 2 = body.length + 3 := by omega
      rw [List.tail_cons, htail, hcount]
      exact .closedComment hbody
    · rw [List.tail_cons, htail, Nat.add_comm]
      exact .openComment hbody
  rw [if_neg hcomment]
  split
  · split <;> exact .token rfl
  split
  · exact .token rfl
  split
  · exact .token rfl
  split
  · exact .token rfl
  split
  · exact .token rfl
  · exact .unknown

end Lexeme

/-- What may stand between tokens, from an offset on and in front of `rest`: blanks, comments up to
the end of their line or to the first mark that closes them, a comment that is never closed and takes
all that is left, and characters that each have an error of their own. -/
inductive Gap (errors : List LexicalError) : Nat → List Char → List Char → Prop
  | nil {offset : Nat} {rest : List Char} : Gap errors offset [] rest
  | blank {offset : Nat} {c : Char} {gap rest : List Char} (h : Text.isBlank c = true)
      (later : Gap errors (offset + c.utf8Size) gap rest) : Gap errors offset (c :: gap) rest
  | lineComment {offset : Nat} {body gap rest : List Char}
      (hbody : ∀ d ∈ body, Lexeme.isLineEnd d = false)
      (hend : (gap ++ rest).head?.all Lexeme.isLineEnd = true)
      (later : Gap errors (offset + Text.byteLength ('/' :: '/' :: body)) gap rest) :
      Gap errors offset ('/' :: '/' :: body ++ gap) rest
  | closedComment {offset : Nat} {body gap rest : List Char} (hbody : ¬ ['*', '/'] <:+: body)
      (later : Gap errors (offset + Text.byteLength ('/' :: '*' :: body ++ ['*', '/'])) gap rest) :
      Gap errors offset ('/' :: '*' :: body ++ ['*', '/'] ++ gap) rest
  | openComment {offset : Nat} {body : List Char} {span : Span} (hbody : ¬ ['*', '/'] <:+: body)
      (herror : .unterminatedComment span ∈ errors) (hstart : span.start.offset = offset) :
      Gap errors offset ('/' :: '*' :: body) []
  | invalid {offset : Nat} {c : Char} {gap rest : List Char} {span : Span}
      (herror : .invalidCharacter c span ∈ errors) (hstart : span.start.offset = offset)
      (hstop : span.stop.offset = offset + c.utf8Size)
      (later : Gap errors (offset + c.utf8Size) gap rest) : Gap errors offset (c :: gap) rest

/-- Gaps and tokens in turn make up a text that begins at an offset. -/
def Tiled (errors : List LexicalError) : Nat → List Char → List Token → Prop
  | offset, text, [] => Gap errors offset text []
  | offset, text, t :: tokens =>
      ∃ gap rest, text = gap ++ (t.text.toList ++ rest) ∧
        Gap errors offset gap (t.text.toList ++ rest) ∧
        t.span.start.offset = offset + Text.byteLength gap ∧
        t.span.stop.offset = t.span.start.offset + Text.byteLength t.text.toList ∧
        Tiled errors t.span.stop.offset rest tokens

/-- One more part of the first gap. -/
theorem Tiled.fill {errors : List LexicalError} {offset : Nat} {part text : List Char}
    {tokens : List Token} (h : Tiled errors (offset + Text.byteLength part) text tokens)
    (hfill : ∀ gap rest, gap ++ rest = text →
      Gap errors (offset + Text.byteLength part) gap rest → Gap errors offset (part ++ gap) rest) :
    Tiled errors offset (part ++ text) tokens := by
  cases tokens with
  | nil => exact hfill text [] (List.append_nil text) h
  | cons t tokens =>
      obtain ⟨gap, rest, rfl, hgap, hstart, hstop, hlater⟩ := h
      refine ⟨part ++ gap, rest, by rw [List.append_assoc], hfill gap _ rfl hgap, ?_, hstop, hlater⟩
      rw [hstart, Text.byteLength_append, Nat.add_assoc]

/-- A lexeme that is no token is a part of a gap. -/
theorem Gap.atHead {errors : List LexicalError} {p : Position} {c : Char} {text : List Char}
    (hkind : (Lexeme.atHead c text).kind.isToken = false)
    (herrors : (Piece.atHead p c text).error?.toList ⊆ errors) {gap rest : List Char}
    (hrest : gap ++ rest = text.drop (Lexeme.atHead c text).extra)
    (later : Gap errors (p.offset + Text.byteLength (Piece.atHead p c text).text) gap rest) :
    Gap errors p.offset ((Piece.atHead p c text).text ++ gap) rest := by
  have hstop : (Piece.atHead p c text).span.stop.offset =
      p.offset + Text.byteLength (Piece.atHead p c text).text := Position.offset_pastAll _ _ _
  have htext : (Piece.atHead p c text).text = c :: text.take (Lexeme.atHead c text).extra := rfl
  have hsort : (Piece.atHead p c text).kind = (Lexeme.atHead c text).kind := rfl
  have hstart : (Piece.atHead p c text).span.start = p := rfl
  generalize Piece.atHead p c text = piece at *
  have hshape := Lexeme.shape_atHead c text
  generalize Lexeme.atHead c text = lexeme at *
  cases hshape with
  | token h => exact absurd hkind (by simp [h])
  | blank h =>
      rw [htext] at later ⊢
      exact .blank h (by simpa using later)
  | @lineComment body rest' hbody hend =>
      have hbodyText : piece.text = '/' :: '/' :: body := by simp [htext]
      rw [hbodyText] at later ⊢
      refine .lineComment hbody ?_ later
      rw [hrest]
      simpa using hend
  | @closedComment body rest' hbody =>
      have hbodyText : piece.text = '/' :: '*' :: body ++ ['*', '/'] := by
        have htake : body.take (body.length + 2) = body := List.take_of_length_le (by omega)
        simp [htext, List.take_append, htake]
      rw [hbodyText] at later ⊢
      exact .closedComment hbody later
  | @openComment body hbody =>
      have hbodyText : piece.text = '/' :: '*' :: body := by simp [htext]
      obtain ⟨rfl, rfl⟩ : gap = [] ∧ rest = [] := by simpa using hrest
      rw [hbodyText, List.append_nil]
      refine .openComment hbody (herrors ?_) (congrArg Position.offset hstart)
      simp [Piece.error?, hsort]
  | unknown =>
      have hone : piece.text = [c] := by simp [htext]
      rw [hone] at later hstop ⊢
      refine .invalid (herrors ?_) (congrArg Position.offset hstart) (by simpa using hstop)
        (by simpa using later)
      simp [Piece.error?, hsort, hone]

/-- A piece is a token if its lexeme is one, with its text and its place. -/
theorem Piece.token?_atHead (p : Position) (c : Char) (text : List Char) :
    if (Lexeme.atHead c text).kind.isToken then
      ∃ kind, (Piece.atHead p c text).token? =
        some ⟨kind, String.ofList (Piece.atHead p c text).text, (Piece.atHead p c text).span⟩
    else (Piece.atHead p c text).token? = none := by
  have hsort : (Piece.atHead p c text).kind = (Lexeme.atHead c text).kind := rfl
  unfold Piece.token? Piece.tokenKind?
  rw [hsort]
  cases (Lexeme.atHead c text).kind <;> simp [Lexeme.Kind.isToken]

/-- **Gaps and tokens in turn make up the text of a scan.** -/
theorem tiled_ofChars {errors : List LexicalError} (p : Position) (text : List Char)
    (herrors : (Scan.ofChars p text).errors ⊆ errors) :
    Tiled errors p.offset text (Scan.ofChars p text).tokens := by
  induction p, text using pieces_induct with
  | nil p => exact Gap.nil
  | cons p c text ih =>
      rw [Scan.ofChars_cons] at herrors ⊢
      obtain ⟨hown, hlater⟩ := List.append_subset.1 herrors
      have htiled := ih hlater
      simp only
      have hstop : (Piece.atHead p c text).span.stop.offset =
          p.offset + Text.byteLength (Piece.atHead p c text).text := Position.offset_pastAll _ _ _
      have htoken := Piece.token?_atHead p c text
      cases hkind : (Lexeme.atHead c text).kind.isToken with
      | true =>
          rw [hkind, if_pos rfl] at htoken
          obtain ⟨kind, htoken⟩ := htoken
          rw [htoken]
          refine ⟨[], _, ?_, .nil, rfl, ?_, htiled⟩
          · simpa using (Piece.text_append_drop p c text).symm
          · rw [String.toList_ofList]
            exact hstop
      | false =>
          rw [hkind, if_neg Bool.false_ne_true] at htoken
          rw [hstop] at htiled
          rw [htoken, ← Piece.text_append_drop p c text]
          exact htiled.fill fun gap rest hrest => Gap.atHead hkind hown hrest

/-! ### What a scan says of its source -/

/-- Where tokens and errors begin and end, and where the source does. -/
def Scan.endPoints (scan : Scan) : List Position :=
  (scan.tokens.map Token.span ++ scan.errors.map LexicalError.span).flatMap
    (fun span => [span.start, span.stop]) ++ [scan.finish]

/-- What a scan says of its source. -/
structure Scan.Tiles (scan : Scan) (source : String) : Prop where
  /-- The scan ends where the source does. -/
  finish : scan.finish.offset = Text.byteLength source.toList
  /-- A token has characters, and they stand where its span says. -/
  nonempty : ∀ t ∈ scan.tokens, t.text ≠ ""
  slice : ∀ t ∈ scan.tokens, t.span.slice source = t.text
  /-- The tokens come one behind another. -/
  ordered : Token.Ordered scan.tokens
  /-- What is left between them are blanks, comments and characters with errors. -/
  tiled : Tiled scan.errors 0 source.toList scan.tokens
  /-- No two errors are about the same place. -/
  errors : scan.errors.Pairwise fun e later => e.span.start.offset < later.span.start.offset
  /-- Lines end with every line feed, and with every carriage return that no line feed follows. -/
  separators : scan.separators =
    ((Text.sites 0 source.toList none).filter Text.Site.separates).map Text.Site.offset
  ascending : scan.separators.Pairwise (· < ·)
  /-- Line and column are counted from the line ends. -/
  counts : ∀ p ∈ scan.endPoints, p.Counts source.toList scan.separators

/-- What a span says that covers a part of a source. -/
theorem Span.Covers.slice {span : Span} {source : String} {part : List Char}
    (h : span.Covers Position.start source.toList part) :
    span.slice source = String.ofList part := by
  obtain ⟨front, back, htext, hstart, hstop⟩ := h
  have hstart : span.start.offset = Text.byteLength front := by
    rw [hstart, Position.offset_pastAll]
    exact Nat.zero_add _
  have hstop : span.stop.offset = Text.byteLength front + Text.byteLength part := by
    rw [hstop, Position.offset_pastAll, Text.byteLength_append]
    exact Nat.zero_add _
  rw [Span.slice, hstart, hstop, htext, Text.slice?_append]

/-- The ends of a span that covers a part of a source have the line and the column of their place. -/
theorem Span.Covers.counts {span : Span} {text part : List Char}
    (h : span.Covers Position.start text part) :
    ∀ p ∈ [span.start, span.stop], p.Counts text (Text.lineEnds 0 text none) := by
  obtain ⟨front, back, htext, hstart, hstop⟩ := h
  intro p hp
  simp only [List.mem_cons, List.not_mem_nil, or_false] at hp
  rcases hp with rfl | rfl
  · rw [hstart, htext]
    exact Position.counts_pastAll front (part ++ back)
  · rw [hstop, htext, ← List.append_assoc]
    exact Position.counts_pastAll (front ++ part) back

/-- An error stands where its piece does. -/
theorem Piece.span_of_error? {piece : Piece} {e : LexicalError} (h : piece.error? = some e) :
    e.span = piece.span := by
  unfold Piece.error? at h
  split at h
  · cases h
    rfl
  · cases h
    rfl
  · cases h
    rfl
  · obtain ⟨c, -, rfl⟩ := Option.map_eq_some_iff.1 h
    rfl
  · cases h

/-- The pieces of a text begin one behind another. -/
theorem pieces_increasing (p : Position) (text : List Char) :
    (pieces p text).1.Pairwise fun piece later =>
      piece.span.start.offset < later.span.start.offset := by
  have hstacked := piecesLoop_stacked text.length text (Piece.stacked_nil p)
  refine (List.pairwise_reverse.2 hstacked.apart).imp_of_mem fun hpiece _ hle => ?_
  exact Nat.lt_of_lt_of_le (hstacked.nonempty _ (List.mem_reverse.1 hpiece)) hle

/-- **The scan of a source tiles it.** -/
theorem scan_tiles (source : String) : (Scan.ofText source).Tiles source := by
  have hcovers := Piece.covers Position.start source.toList
  have hseparators : (Scan.ofText source).separators = Text.lineEnds 0 source.toList none :=
    (Scan.separators_ofChars _ _).trans (Position.separatorsIn_eq _ _ _)
  have htoken : ∀ t ∈ (Scan.ofText source).tokens,
      t.text ≠ "" ∧ t.span.Covers Position.start source.toList t.text.toList := by
    intro t ht
    obtain ⟨piece, hpiece, htoken⟩ := List.mem_filterMap.1 ht
    obtain ⟨kind, -, rfl⟩ := Option.map_eq_some_iff.1 htoken
    obtain ⟨hne, hcover⟩ := hcovers piece hpiece
    exact ⟨by simpa using hne, by simpa using hcover⟩
  constructor
  · rw [Scan.ofText, Scan.finish_ofChars, Position.offset_pastAll]
    exact Nat.zero_add _
  · exact fun t ht => (htoken t ht).1
  · exact fun t ht => by simpa using (htoken t ht).2.slice
  · exact Scan.ordered_ofChars _ _
  · exact tiled_ofChars Position.start source.toList (List.Subset.refl _)
  · refine (pieces_increasing Position.start source.toList).filterMap Piece.error? ?_
    intro piece later hlt e he e' he'
    rwa [Piece.span_of_error? he, Piece.span_of_error? he']
  · exact hseparators
  · rw [hseparators]
    exact List.pairwise_map.2 ((Text.sites_increasing 0 source.toList none).filter _)
  · intro p hp
    rw [hseparators]
    rcases List.mem_append.1 hp with hends | hfinish
    · obtain ⟨span, hspan, hp⟩ := List.mem_flatMap.1 hends
      rcases List.mem_append.1 hspan with htokens | herrors
      · obtain ⟨t, ht, rfl⟩ := List.mem_map.1 htokens
        exact (htoken t ht).2.counts p hp
      · obtain ⟨e, he, rfl⟩ := List.mem_map.1 herrors
        obtain ⟨piece, hpiece, herror⟩ := List.mem_filterMap.1 he
        rw [Piece.span_of_error? herror] at hp
        exact (hcovers piece hpiece).2.counts p hp
    · rw [List.mem_singleton.1 hfinish, Scan.ofText, Scan.finish_ofChars]
      simpa using Position.counts_pastAll source.toList []

end JavaOutline
