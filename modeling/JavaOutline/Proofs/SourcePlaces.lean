/-
**Lines and columns of a source.**

A scan carries a position along that it moves on character by character.  Here lines and columns are
counted afresh, from the characters of the source and their offsets: a line ends with a line feed and
with a carriage return that no line feed follows, and a column counts the characters since the last
such end.  Wherever walking over the source comes to, the position says the same.

Main definitions:

* `Text.Site`, `Text.sites` — the characters of a text with their offsets;
* `Text.Site.separates`, `Text.Site.isPaired` — a character that ends a line, and the carriage return
  of a pair;
* `Position.Counts` — a position has the line and the column that are counted.

Main results:

* `Position.separatorsIn_eq` — the separators of a text are the sites that end a line;
* `Text.sites_increasing` — the sites of a text come in ascending order;
* `Position.counts_pastAll` — **walking over a source counts its lines and columns**.
-/

import Mathlib.Data.List.Induction
import JavaOutline.Span

set_option autoImplicit false

namespace JavaOutline

/-! ### Sites -/

namespace Text

/-- A character of a text, with its byte offset and the character behind it. -/
structure Site where
  offset : Nat
  char : Char
  next : Option Char
deriving DecidableEq, Repr

/-- Whether a line ends there: a line feed, or a carriage return that no line feed follows. -/
def Site.separates (site : Site) : Bool :=
  site.char == '\n' || (site.char == '\r' && site.next != some '\n')

/-- Whether it is the carriage return in front of a line feed. -/
def Site.isPaired (site : Site) : Bool := site.char == '\r' && site.next == some '\n'

/-- The characters of a text that begins at an offset and that `next` follows. -/
def sites (offset : Nat) : List Char → Option Char → List Site
  | [], _ => []
  | c :: text, next => ⟨offset, c, text.head?.or next⟩ :: sites (offset + c.utf8Size) text next

theorem sites_append (offset : Nat) (front back : List Char) (next : Option Char) :
    sites offset (front ++ back) next =
      sites offset front (back.head?.or next) ++ sites (offset + byteLength front) back next := by
  induction front generalizing offset with
  | nil => simp [sites]
  | cons c front ih =>
      have hhead : (front ++ back).head?.or next = front.head?.or (back.head?.or next) := by
        cases front <;> simp
      simp only [List.cons_append, sites, hhead, ih, byteLength_cons, Nat.add_assoc]

/-- The sites of a text lie in it. -/
theorem offset_of_mem_sites {offset : Nat} {text : List Char} {next : Option Char} {site : Site}
    (h : site ∈ sites offset text next) :
    offset ≤ site.offset ∧ site.offset < offset + byteLength text := by
  induction text generalizing offset with
  | nil => cases h
  | cons c text ih =>
      have hpos : 0 < c.utf8Size := Char.utf8Size_pos c
      rw [byteLength_cons]
      rcases List.mem_cons.1 h with rfl | hlater
      · exact ⟨Nat.le_refl _, by simp only; omega⟩
      · obtain ⟨hle, hlt⟩ := ih hlater
        exact ⟨by omega, by omega⟩

/-- The sites of a text come in ascending order. -/
theorem sites_increasing (offset : Nat) (text : List Char) (next : Option Char) :
    (sites offset text next).Pairwise fun site later => site.offset < later.offset := by
  induction text generalizing offset with
  | nil => exact List.Pairwise.nil
  | cons c text ih =>
      refine List.Pairwise.cons (fun later hlater => ?_) (ih _)
      have hpos : 0 < c.utf8Size := Char.utf8Size_pos c
      have hle := (offset_of_mem_sites hlater).1
      simp only
      omega

/-- The sites of a text where a line ends. -/
def lineEnds (offset : Nat) (text : List Char) (next : Option Char) : List Nat :=
  ((sites offset text next).filter Site.separates).map Site.offset

theorem lineEnds_append (offset : Nat) (front back : List Char) (next : Option Char) :
    lineEnds offset (front ++ back) next =
      lineEnds offset front (back.head?.or next) ++
        lineEnds (offset + byteLength front) back next := by
  rw [lineEnds, sites_append, List.filter_append, List.map_append]
  rfl

theorem offset_of_mem_lineEnds {offset : Nat} {text : List Char} {next : Option Char} {stop : Nat}
    (h : stop ∈ lineEnds offset text next) :
    offset ≤ stop ∧ stop < offset + byteLength text := by
  obtain ⟨site, hsite, rfl⟩ := List.mem_map.1 h
  exact offset_of_mem_sites (List.mem_filter.1 hsite).1

/-- Whether a site counts for the column of an offset: it lies before the offset and behind all line
ends that do, and is not the carriage return of a pair. -/
def Site.inLine (ends : List Nat) (offset : Nat) (site : Site) : Bool :=
  site.offset < offset && ends.all (fun stop => offset ≤ stop || stop < site.offset) &&
    !site.isPaired

end Text

namespace Position

/-! ### Separators -/

/-- The separators of a text are its sites where a line ends. -/
theorem separatorsIn_eq (p : Position) (text : List Char) (next : Option Char) :
    p.separatorsIn text next = Text.lineEnds p.offset text next := by
  induction text generalizing p with
  | nil => rfl
  | cons c text ih =>
      have hends : Text.Site.separates ⟨p.offset, c, text.head?.or next⟩ =
          endsLine c (text.head?.or next) := rfl
      rw [separatorsIn, Text.lineEnds, Text.sites, List.filter_cons, hends]
      simp only [ih, offset_past]
      cases endsLine c (text.head?.or next) <;> rfl

/-! ### Lines and columns -/

/-- A position has the line and the column that are counted in a source with these line ends. -/
structure Counts (p : Position) (source : List Char) (ends : List Nat) : Prop where
  line : p.line = 1 + ends.countP (· < p.offset)
  column : p.column = 1 + (Text.sites 0 source none).countP (Text.Site.inLine ends p.offset)

/-- The sites that count for the column behind a text. -/
def columnSites (text : List Char) (next : Option Char) : List Text.Site :=
  (Text.sites 0 text next).filter fun site =>
    (Text.lineEnds 0 text next).all (· < site.offset) && !site.isPaired

/-- One character more: a line end leaves nothing to count, and any other character is counted unless
it is the carriage return of a pair. -/
theorem columnSites_append_singleton (text : List Char) (c : Char) (next : Option Char) :
    let site : Text.Site := ⟨Text.byteLength text, c, next⟩
    columnSites (text ++ [c]) next =
      if site.separates then []
      else columnSites text (some c) ++ if site.isPaired then [] else [site] := by
  intro site
  have hsites : Text.sites 0 (text ++ [c]) next = Text.sites 0 text (some c) ++ [site] := by
    simp [Text.sites_append, Text.sites, site]
  have hbefore : ∀ old ∈ Text.sites 0 text (some c), old.offset < site.offset := fun old hold => by
    simpa using (Text.offset_of_mem_sites hold).2
  have hends : Text.lineEnds 0 (text ++ [c]) next =
      Text.lineEnds 0 text (some c) ++ if site.separates then [site.offset] else [] := by
    rw [Text.lineEnds, hsites, List.filter_append, List.map_append, Text.lineEnds,
      List.filter_cons, List.filter_nil]
    cases site.separates <;> rfl
  rw [columnSites, hsites, hends]
  cases hseparates : site.separates with
  | true =>
      refine List.filter_eq_nil_iff.2 fun old hold => ?_
      have hle : old.offset ≤ site.offset := by
        rcases List.mem_append.1 hold with hmem | hlast
        · exact Nat.le_of_lt (hbefore old hmem)
        · exact Nat.le_of_eq (congrArg _ (List.mem_singleton.1 hlast))
      simp [Nat.not_lt.2 hle]
  | false =>
      have hbehind : (Text.lineEnds 0 text (some c)).all (· < site.offset) = true := by
        refine List.all_eq_true.2 fun stop hstop => ?_
        simpa using (Text.offset_of_mem_lineEnds hstop).2
      rw [if_neg Bool.false_ne_true, List.append_nil, List.filter_append, List.filter_cons,
        List.filter_nil, hbehind]
      cases site.isPaired <;> rfl

/-- Behind a text that is walked over from the start of a source, the line counts the line ends and
the column the characters behind the last one. -/
theorem pastAll_start (text : List Char) (next : Option Char) :
    (start.pastAll text next).line = 1 + (Text.lineEnds 0 text next).length ∧
      (start.pastAll text next).column = 1 + (columnSites text next).length := by
  induction text using List.reverseRecOn generalizing next with
  | nil => exact ⟨rfl, rfl⟩
  | append_singleton text c ih =>
      obtain ⟨hline, hcolumn⟩ := ih (some c)
      have hwalk : start.pastAll (text ++ [c]) next = (start.pastAll text (some c)).past c next := by
        simp [pastAll_append, pastAll]
      have hends : Text.lineEnds 0 (text ++ [c]) next =
          Text.lineEnds 0 text (some c) ++ Text.lineEnds (Text.byteLength text) [c] next := by
        simp [Text.lineEnds_append]
      rw [hwalk, hends, columnSites_append_singleton, List.length_append]
      unfold past
      by_cases hends : endsLine c next = true
      · have hseparates : Text.Site.separates ⟨Text.byteLength text, c, next⟩ = true := hends
        rw [if_pos hends, if_pos hseparates]
        simp [Text.lineEnds, Text.sites, hseparates, hline, Nat.add_assoc]
      · have hseparates : ¬ Text.Site.separates ⟨Text.byteLength text, c, next⟩ = true := hends
        rw [if_neg hends, if_neg hseparates]
        by_cases hreturn : c = '\r'
        · subst hreturn
          have hpaired : Text.Site.isPaired ⟨Text.byteLength text, '\r', next⟩ = true := by
            simpa [endsLine, Text.Site.isPaired] using hends
          simp [Text.lineEnds, Text.sites, hseparates, hline, hcolumn, hpaired]
        · have hpaired : ¬ Text.Site.isPaired ⟨Text.byteLength text, c, next⟩ = true := by
            simp [Text.Site.isPaired, hreturn]
          simp [Text.lineEnds, Text.sites, hseparates, hline, hcolumn, hpaired, hreturn,
            Nat.add_assoc]

/-- **Walking over a source counts its lines and columns.** -/
theorem counts_pastAll (front back : List Char) :
    (start.pastAll front back.head?).Counts (front ++ back)
      (Text.lineEnds 0 (front ++ back) none) := by
  obtain ⟨hline, hcolumn⟩ := pastAll_start front back.head?
  have hoffset : (start.pastAll front back.head?).offset = Text.byteLength front := by
    rw [offset_pastAll]
    exact Nat.zero_add _
  have hends : Text.lineEnds 0 (front ++ back) none =
      Text.lineEnds 0 front back.head? ++ Text.lineEnds (Text.byteLength front) back none := by
    simp [Text.lineEnds_append]
  have hsites : Text.sites 0 (front ++ back) none =
      Text.sites 0 front back.head? ++ Text.sites (Text.byteLength front) back none := by
    simp [Text.sites_append]
  -- What belongs to the front lies before the position, and what belongs to the back does not.
  have hbefore {stop : Nat} (h : stop ∈ Text.lineEnds 0 front back.head?) :
      stop < Text.byteLength front := by simpa using (Text.offset_of_mem_lineEnds h).2
  have hbehind {stop : Nat} (h : stop ∈ Text.lineEnds (Text.byteLength front) back none) :
      Text.byteLength front ≤ stop := (Text.offset_of_mem_lineEnds h).1
  constructor
  · rw [hline, hoffset, hends, List.countP_append, List.countP_eq_length.2, List.countP_eq_zero.2]
    · rfl
    · exact fun stop hstop => by simpa using hbehind hstop
    · exact fun stop hstop => by simpa using hbefore hstop
  · have hback : (Text.sites (Text.byteLength front) back none).countP
        (Text.Site.inLine (Text.lineEnds 0 (front ++ back) none) (Text.byteLength front)) = 0 := by
      refine List.countP_eq_zero.2 fun site hsite => ?_
      have hle := (Text.offset_of_mem_sites hsite).1
      simp [Text.Site.inLine, Nat.not_lt.2 hle]
    have hfront : (Text.sites 0 front back.head?).countP
        (Text.Site.inLine (Text.lineEnds 0 (front ++ back) none) (Text.byteLength front)) =
          (columnSites front back.head?).length := by
      rw [columnSites, ← List.countP_eq_length_filter]
      refine List.countP_congr fun site hsite => ?_
      have hlt : site.offset < Text.byteLength front := by
        simpa using (Text.offset_of_mem_sites hsite).2
      have hfar : (Text.lineEnds (Text.byteLength front) back none).all
          (fun stop => Text.byteLength front ≤ stop || stop < site.offset) = true :=
        List.all_eq_true.2 fun stop hstop => by simp [hbehind hstop]
      have hnear : (Text.lineEnds 0 front back.head?).all
          (fun stop => Text.byteLength front ≤ stop || stop < site.offset) =
            (Text.lineEnds 0 front back.head?).all (· < site.offset) := by
        rw [Bool.eq_iff_iff, List.all_eq_true, List.all_eq_true]
        refine forall₂_congr fun stop hstop => ?_
        simp [Nat.not_le.2 (hbefore hstop)]
      rw [Text.Site.inLine, hends, List.all_append, hfar, hnear]
      simp [hlt]
    rw [hcolumn, hoffset, hsites, List.countP_append, hback, hfront, Nat.add_zero]

end Position

end JavaOutline
