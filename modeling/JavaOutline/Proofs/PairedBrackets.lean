/-
**Brackets on the way through a source.**

A parser that reports nothing has met brackets that nest, sort by sort, wherever it looked at them one by
one.  It does not look at all of them: an expression is cut out by counting brackets of any sort, and a
group that an outline leaves out is passed over by counting brackets of its own sort.  So the brackets on
the way from one place to another nest, apart from the stretches that are passed as a whole on this very
way.

Main definitions:

* `EvenlyBracketed` — the brackets of tokens nest if their sorts are ignored;
* `Group` — a bracket and what stands up to the one that closes it, if only its sort is counted;
* `Stretch.uncovered` — the tokens that none of some stretches covers;
* `NestsApart` — the brackets of tokens nest outside of some stretches;
* `Nesting` — the same from one place to another, token by token.

Main results:

* `bracketsCount_expression`, `not_stop_of_outside` — **an expression closes the brackets that it opens**,
  and ends at the first stop outside of them;
* `group_of_bracketed` — a group is passed as a whole;
* `Nesting.trans` — **brackets that nest on one way and on the next nest on both**;
* `Nesting.nestsApart` — brackets that nest token by token nest outside of the stretches.
-/

import JavaOutline.Proofs.PassedStretches
import JavaOutline.Proofs.WholeCaptures

set_option autoImplicit false

namespace JavaOutline

open JavaOutline.Parser

/-! ### Brackets of any sort -/

/-- Whether brackets of any sort nest if all sorts are taken for one, `depth` being open in front. -/
def bracketsCount (depth : Nat) : List Token → Bool
  | [] => depth == 0
  | t :: ts =>
      if t.opens then bracketsCount (depth + 1) ts
      else if t.closes then
        match depth with
        | 0 => false
        | depth + 1 => bracketsCount depth ts
      else bracketsCount depth ts

/-- The brackets of the tokens nest if their sorts are ignored. -/
def EvenlyBracketed (tokens : List Token) : Prop := bracketsCount 0 tokens = true

instance (tokens : List Token) : Decidable (EvenlyBracketed tokens) :=
  inferInstanceAs (Decidable (bracketsCount 0 tokens = true))

/-- **An expression that does not run into the end of the text closes the brackets that it opens.** -/
theorem bracketsCount_expression {stops : List String} {depth : Nat} {tokens : List Token}
    (h : tokens.drop (expressionLength stops depth tokens) ≠ []) :
    bracketsCount depth (tokens.take (expressionLength stops depth tokens)) = true := by
  fun_induction expressionLength stops depth tokens with
  | case1 => exact absurd rfl h
  | case2 depth t ts hstop => rw [hstop.1]; rfl
  | case3 depth t ts _ hopens ih =>
      rw [List.take_succ_cons, bracketsCount.eq_def]
      simp only [if_pos hopens]
      exact ih h
  | case4 t ts _ hcloses => rfl
  | case5 t ts hopens hcloses depth _ ih =>
      simp only [List.take_succ_cons, bracketsCount, if_neg hopens, if_pos hcloses]
      exact ih h
  | case6 depth t ts _ hopens hcloses ih =>
      rw [List.take_succ_cons, bracketsCount.eq_def]
      simp only [if_neg hopens, if_neg hcloses]
      exact ih h

/-- No stop stands outside of the brackets of an expression. -/
theorem not_stop_of_outside {stops : List String} {depth : Nat} {tokens : List Token} {u : Token}
    (h : Outside depth u (tokens.take (expressionLength stops depth tokens))) :
    u.isAny stops = false := by
  have hstep {t : Token} {ts : List Token} {depth next k : Nat}
      (hnext : bracketDepth depth [t] = next) (hstop : ¬ (depth = 0 ∧ t.isAny stops = true))
      (ih : Outside next u (ts.take k) → u.isAny stops = false)
      (h : Outside depth u ((t :: ts).take (k + 1))) : u.isAny stops = false := by
    rw [List.take_succ_cons, outside_cons, hnext] at h
    rcases h with ⟨hzero, rfl⟩ | hlater
    · exact Bool.eq_false_iff.2 fun his => hstop ⟨hzero, his⟩
    · exact ih hlater
  fun_induction expressionLength stops depth tokens with
  | case1 => exact absurd h not_outside_nil
  | case2 => exact absurd h not_outside_nil
  | case3 depth t ts hstop hopens ih => exact hstep (bracketDepth_opens hopens) hstop ih h
  | case4 => exact absurd h not_outside_nil
  | case5 t ts hopens hcloses depth hstop ih =>
      exact hstep (bracketDepth_closes hopens hcloses) hstop ih h
  | case6 depth t ts hstop hopens hcloses ih =>
      exact hstep (bracketDepth_word hopens hcloses) hstop ih h

/-! ### Brackets of one sort -/

/-- A bracket and everything up to the one that closes it, if only brackets of its sort are counted. -/
def Group (opener closer : String) : List Token → Prop
  | [] => False
  | t :: ts => t.is opener = true ∧ groupLength? opener closer 0 ts = some ts.length

instance (opener closer : String) : (tokens : List Token) → Decidable (Group opener closer tokens)
  | [] => inferInstanceAs (Decidable False)
  | t :: ts => inferInstanceAs (Decidable (t.is opener = true ∧ _ = some ts.length))

/-- The closer of a group is found without what stands behind it. -/
theorem groupLength?_take {opener closer : String} {depth k : Nat} {tokens : List Token}
    (h : groupLength? opener closer depth tokens = some k) :
    groupLength? opener closer depth (tokens.take k) = some k := by
  fun_induction groupLength? opener closer depth tokens generalizing k with
  | case1 => cases h
  | case2 depth t ts hopens ih =>
      obtain ⟨m, hm, rfl⟩ := Option.map_eq_some_iff.1 h
      simp only [List.take_succ_cons, groupLength?, if_pos hopens, ih hm, Option.map_some]
  | case3 t ts hopens hcloses =>
      cases h
      simp only [List.take_succ_cons, groupLength?, if_neg hopens, if_pos hcloses]
  | case4 t ts hopens hcloses depth ih =>
      obtain ⟨m, hm, rfl⟩ := Option.map_eq_some_iff.1 h
      simp only [List.take_succ_cons, groupLength?, if_neg hopens, if_pos hcloses, ih hm,
        Option.map_some]
  | case5 depth t ts hopens hcloses ih =>
      obtain ⟨m, hm, rfl⟩ := Option.map_eq_some_iff.1 h
      rw [List.take_succ_cons, groupLength?.eq_def]
      simp only [if_neg hopens, if_neg hcloses, ih hm, Option.map_some]

/-- Behind so many tokens the others are ahead. -/
theorem Parser.State.rest_skip_of_le {k : Nat} {s : State} (h : k ≤ s.rest.length) :
    (s.skip k).rest = s.rest.drop k := by
  have hskip := State.rest_skip (List.take_append_drop k s.rest).symm
  rwa [List.length_take, Nat.min_eq_left h] at hskip

/-- A group whose opener is ahead is passed as a whole. -/
theorem group_of_bracketed {opener closer : String} {setting : Setting} {s n : State} {span : Span}
    (hsees : s.sees opener = true) (h : bracketed opener closer setting s = .ok span n) :
    n.errors = s.errors ∧ ∃ group, s.rest = group ++ n.rest ∧ n.index = s.index + group.length ∧
      Group opener closer group := by
  obtain ⟨k, hk, rfl, -⟩ := groupLength_of_bracketed h
  obtain ⟨t, ts, hrest, ht⟩ := State.exists_cons_of_sees hsees
  obtain ⟨-, hle⟩ := groupLength?_pos hk
  have hbehind := State.rest_skip_of_le hle
  have hindex := State.index_skip hle
  rw [State.index_advance_of_ne_nil (hrest ▸ List.cons_ne_nil t ts)] at hindex
  rw [State.rest_advance hrest] at hk hle hbehind
  refine ⟨by rw [State.skip_errors, State.advance_errors], t :: ts.take k, ?_, ?_, ht, ?_⟩
  · rw [hrest, List.cons_append, hbehind, List.take_append_drop]
  · rw [hindex, List.length_cons, List.length_take, Nat.min_eq_left hle]
    omega
  · rw [groupLength?_take hk, List.length_take, Nat.min_eq_left hle]

/-! ### Outside of stretches -/

/-- What a stretch is made of: the arguments or parameters of a type, the arguments of an annotation or
the components of a record, or else an expression, whose stops stand inside of its brackets only. -/
def Stretch.Kind.Whole (tokens : List Token) : Stretch.Kind → Prop
  | .group opener closer =>
      (opener, closer) ∈ [("<", ">"), ("(", ")")] ∧ Group opener closer tokens
  | .expression stops =>
      EvenlyBracketed tokens ∧ ∀ t, Outside 0 t tokens → t.isAny stops = false

namespace Stretch

/-- Whether a stretch covers the token at a place. -/
def covers (stretch : Stretch) (i : Nat) : Bool :=
  stretch.start ≤ i && i < stretch.start + stretch.length

/-- The tokens that a stretch covers. -/
def tokens (stretch : Stretch) (ts : List Token) : List Token :=
  (ts.drop stretch.start).take stretch.length

theorem covers_iff {stretch : Stretch} {i : Nat} :
    stretch.covers i = true ↔ stretch.start ≤ i ∧ i < stretch.start + stretch.length := by
  simp [covers]

/-- The tokens that no stretch covers, `i` tokens being in front of the first one. -/
def uncovered (found : List Stretch) (i : Nat) (ts : List Token) : List Token :=
  ((ts.zipIdx i).filter fun entry => !found.any (·.covers entry.2)).map Prod.fst

section

variable {found : List Stretch} {stretch : Stretch} {i : Nat} {t : Token} {ts us part : List Token}

/-- Whether a token is outside does not depend on what stands behind it. -/
theorem uncovered_append :
    uncovered found i (ts ++ us) =
      uncovered found i ts ++ uncovered found (i + ts.length) us := by
  rw [uncovered, List.zipIdx_append, List.filter_append, List.map_append]
  rfl

/-- A token in front of all stretches is outside. -/
theorem uncovered_cons (h : ∀ stretch ∈ found, i < stretch.start) :
    uncovered found i (t :: ts) = t :: uncovered found (i + 1) ts := by
  have hnone : found.any (·.covers i) = false := by
    rw [List.any_eq_false]
    intro stretch hmem hcovers
    exact absurd (covers_iff.1 hcovers).1 (Nat.not_le.2 (h stretch hmem))
  rw [uncovered, List.zipIdx_cons, List.filter_cons_of_pos (by rw [hnone]; rfl), List.map_cons]
  rfl

/-- No token of a stretch is outside. -/
theorem uncovered_part (hstart : stretch.start = i) (hlength : stretch.length = part.length) :
    uncovered (stretch :: found) i part = [] := by
  rw [uncovered, List.filter_eq_nil_iff.2, List.map_nil]
  rintro ⟨t, k⟩ hmem
  have hcovers : stretch.covers k = true := by
    rw [covers_iff, hstart, hlength]
    exact ⟨List.le_snd_of_mem_zipIdx hmem, List.snd_lt_add_of_mem_zipIdx hmem⟩
  simp [hcovers]

/-- Behind a stretch it covers nothing. -/
theorem uncovered_behind (h : stretch.start + stretch.length ≤ i) :
    uncovered (stretch :: found) i ts = uncovered found i ts := by
  rw [uncovered, List.filter_congr, uncovered]
  rintro ⟨t, k⟩ hmem
  have hle : i ≤ k := List.le_snd_of_mem_zipIdx hmem
  have hcovers : stretch.covers k = false := by
    rw [Bool.eq_false_iff]
    intro hcovers
    have hlt := (covers_iff.1 hcovers).2
    omega
  rw [List.any_cons, hcovers, Bool.false_or]

end

end Stretch

/-- The brackets of tokens nest outside of some stretches, which are whole and follow one another. -/
structure NestsApart (ts : List Token) (found : List Stretch) : Prop where
  outside : WellBracketed (Stretch.uncovered found 0 ts)
  whole : ∀ stretch ∈ found, stretch.kind.Whole (stretch.tokens ts)
  apart : found.Pairwise fun stretch later => stretch.start + stretch.length ≤ later.start

/-! ### Brackets between two places -/

/-- The brackets from one place to a later one nest, while closing brackets are awaited that are all
closed on the way, apart from some stretches. -/
inductive Nesting :
    List String → Nat → List Token → List Stretch → Nat → List Token → Prop
  | done {i : Nat} {ts : List Token} : Nesting [] i ts [] i ts
  | opens {awaited : List String} {closer : String} {t : Token} {i j : Nat} {ts us : List Token}
      {found : List Stretch} (ht : t.opens = true) (hcloser : t.closer? = some closer)
      (later : Nesting (closer :: awaited) (i + 1) ts found j us) :
      Nesting awaited i (t :: ts) found j us
  | closes {awaited : List String} {closer : String} {t : Token} {i j : Nat} {ts us : List Token}
      {found : List Stretch} (ht : ¬ t.opens = true) (hc : t.closes = true) (his : t.is closer = true)
      (later : Nesting awaited (i + 1) ts found j us) :
      Nesting (closer :: awaited) i (t :: ts) found j us
  | word {awaited : List String} {t : Token} {i j : Nat} {ts us : List Token} {found : List Stretch}
      (ht : ¬ t.opens = true) (hc : ¬ t.closes = true)
      (later : Nesting awaited (i + 1) ts found j us) : Nesting awaited i (t :: ts) found j us
  | whole {awaited : List String} {i j : Nat} {kind : Stretch.Kind} {part ts us : List Token}
      {found : List Stretch} (hpart : kind.Whole part)
      (later : Nesting awaited (i + part.length) ts found j us) :
      Nesting awaited i (part ++ ts) (⟨kind, i, part.length⟩ :: found) j us

namespace Nesting

variable {awaited later : List String} {i j k : Nat} {ts us vs : List Token}
  {found others : List Stretch}

/-- **Brackets that nest on one way and on the next nest on both.** -/
theorem trans (h : Nesting awaited i ts found j us) (h' : Nesting later j us others k vs) :
    Nesting (awaited ++ later) i ts (found ++ others) k vs := by
  induction h with
  | done => exact h'
  | opens ht hcloser _ ih => exact .opens ht hcloser (ih h')
  | closes ht hc his _ ih => exact .closes ht hc his (ih h')
  | word ht hc _ ih => exact .word ht hc (ih h')
  | whole hpart _ ih => exact .whole hpart (ih h')

/-- Tokens that are no brackets. -/
theorem words (h : ∀ t ∈ ts, ¬ t.opens = true ∧ ¬ t.closes = true) :
    Nesting [] i (ts ++ us) [] (i + ts.length) us := by
  induction ts generalizing i with
  | nil => exact .done
  | cons t ts ih =>
      obtain ⟨hopens, hcloses⟩ := h t List.mem_cons_self
      have hlater := ih (i := i + 1) fun u hu => h u (List.mem_cons_of_mem t hu)
      rw [Nat.add_right_comm] at hlater
      exact .word hopens hcloses hlater

/-- The second place is not ahead of the first one. -/
theorem length_le (h : Nesting awaited i ts found j us) : us.length ≤ ts.length := by
  induction h with
  | done => exact Nat.le_refl _
  | opens _ _ _ ih | closes _ _ _ _ ih | word _ _ _ ih => exact Nat.le_succ_of_le ih
  | whole _ _ ih =>
      rw [List.length_append]
      exact Nat.le_add_left_of_le ih

/-- A bracket that is awaited is closed by a token. -/
theorem ne_nil (h : Nesting awaited i ts found j us) (hawaited : awaited ≠ []) : ts ≠ [] := by
  induction h with
  | done => exact absurd rfl hawaited
  | opens | closes | word => exact List.cons_ne_nil _ _
  | whole _ _ ih => exact List.append_ne_nil_of_right_ne_nil _ (ih hawaited)

/-! ### Outside of the stretches -/

/-- No stretch begins in front of the first place. -/
theorem le_start (h : Nesting awaited i ts found j us) : ∀ stretch ∈ found, i ≤ stretch.start := by
  induction h with
  | done => exact fun _ => nofun
  | opens _ _ _ ih | closes _ _ _ _ ih | word _ _ _ ih =>
      exact fun stretch hmem => Nat.le_of_succ_le (ih stretch hmem)
  | whole _ _ ih =>
      refine List.forall_mem_cons.2 ⟨Nat.le_refl _, fun stretch hmem => ?_⟩
      exact Nat.le_trans (Nat.le_add_right _ _) (ih stretch hmem)

/-- The stretches follow one another. -/
theorem apart (h : Nesting awaited i ts found j us) :
    found.Pairwise fun stretch later => stretch.start + stretch.length ≤ later.start := by
  induction h with
  | done => exact .nil
  | opens _ _ _ ih | closes _ _ _ _ ih | word _ _ _ ih => exact ih
  | whole _ hlater ih => exact .cons hlater.le_start ih

/-- Every stretch is whole. -/
theorem whole_of_mem (h : Nesting awaited i ts found j us) :
    ∀ stretch ∈ found, stretch.kind.Whole ((ts.drop (stretch.start - i)).take stretch.length) := by
  -- Behind something that was passed, a stretch is looked for so much further on.
  have hbehind (front : List Token) {back : List Token} {stretch : Stretch} {i : Nat}
      (hle : i + front.length ≤ stretch.start)
      (h : stretch.kind.Whole
        ((back.drop (stretch.start - (i + front.length))).take stretch.length)) :
      stretch.kind.Whole (((front ++ back).drop (stretch.start - i)).take stretch.length) := by
    rwa [show stretch.start - i = front.length + (stretch.start - (i + front.length)) by omega,
      List.drop_length_add_append]
  induction h with
  | done => exact fun _ => nofun
  | opens _ _ hlater ih | closes _ _ _ hlater ih | word _ _ hlater ih =>
      exact fun stretch hmem => hbehind [_] (hlater.le_start stretch hmem) (ih stretch hmem)
  | whole hpart hlater ih =>
      refine List.forall_mem_cons.2 ⟨?_, fun stretch hmem => ?_⟩
      · rw [Nat.sub_self, List.drop_zero, List.take_left]
        exact hpart
      · exact hbehind _ (hlater.le_start stretch hmem) (ih stretch hmem)

/-- **Brackets that nest up to the end nest outside of the stretches.** -/
theorem bracketsNest_uncovered (h : Nesting awaited i ts found j []) :
    bracketsNest awaited (Stretch.uncovered found i ts) = true := by
  generalize hend : ([] : List Token) = us at h
  induction h with
  | done =>
      rw [← hend]
      rfl
  | opens ht hcloser hlater ih =>
      rw [Stretch.uncovered_cons hlater.le_start, bracketsNest_opens hcloser]
      exact ih hend
  | closes ht hc his hlater ih =>
      rw [Stretch.uncovered_cons hlater.le_start, bracketsNest_closes ht hc, his, Bool.true_and]
      exact ih hend
  | word ht hc hlater ih =>
      rw [Stretch.uncovered_cons hlater.le_start, bracketsNest_word ht hc]
      exact ih hend
  | whole _ _ ih =>
      rw [Stretch.uncovered_append, Stretch.uncovered_part rfl rfl, List.nil_append,
        Stretch.uncovered_behind (Nat.le_refl _)]
      exact ih hend

/-- Brackets that nest from the first token to the last nest apart from the stretches on the way. -/
theorem nestsApart (h : Nesting [] 0 ts found j []) : NestsApart ts found where
  outside := h.bracketsNest_uncovered
  whole := h.whole_of_mem
  apart := h.apart

end Nesting

end JavaOutline
