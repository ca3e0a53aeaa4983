/-
**Brackets in pairs.**

The brackets of some tokens nest if every closing bracket is of the sort of the last one that is still
open, and none is open in the end.  What stands outside of all brackets is what a reader meets who
counts how many are open.  The scans that look for the end of an expression, or for the colon in the
header of a loop, count in this way, so they go over tokens whose brackets nest and see only what stands
outside.

Main definitions:

* `Token.closer?` — the bracket that closes what a token opens;
* `bracketsNest`, `WellBracketed` — the brackets of tokens nest, and `Nests`, the same token by token;
* `bracketDepth`, `Outside` — how many brackets are open, and what stands outside of them, and
  `outsideTokens`, the list of that.

Main results:

* `bracketsNest_iff` — the test finds out whether brackets nest;
* `expressionLength_append` — **the end of an expression is looked for behind what nests**, unless a
  stop stands outside;
* `expressionLength_outside` — and otherwise an expression ends in front of a stop outside;
* `isForEachHeader_append` — so does the header of a loop.
-/

import JavaOutline.Proofs.NestedMovement

set_option autoImplicit false

namespace JavaOutline

open JavaOutline.Parser

/-! ### Brackets that nest -/

/-- The bracket that closes what the token opens, if it opens anything. -/
def Token.closer? (t : Token) : Option String :=
  if t.is "(" then some ")" else if t.is "[" then some "]" else if t.is "\x7b" then some "\x7d"
  else none

/-- Whether the brackets of the tokens nest, while these closing brackets are awaited in front. -/
def bracketsNest : List String → List Token → Bool
  | awaited, [] => awaited.isEmpty
  | awaited, t :: ts =>
      match t.closer? with
      | some closer => bracketsNest (closer :: awaited) ts
      | none =>
          if t.closes then
            match awaited with
            | [] => false
            | closer :: awaited => t.is closer && bracketsNest awaited ts
          else bracketsNest awaited ts

/-- The brackets of the tokens nest: every one that is closed is closed by its own sort, and every one
that is opened is closed. -/
def WellBracketed (tokens : List Token) : Prop := bracketsNest [] tokens = true

instance (tokens : List Token) : Decidable (WellBracketed tokens) :=
  inferInstanceAs (Decidable (bracketsNest [] tokens = true))

/-- How many brackets are open behind the tokens, `depth` being open in front. -/
def bracketDepth (depth : Nat) : List Token → Nat
  | [] => depth
  | t :: ts =>
      if t.opens then bracketDepth (depth + 1) ts
      else if t.closes then bracketDepth (depth - 1) ts
      else bracketDepth depth ts

/-- The token stands among the tokens where no bracket is open, `depth` being open in front. -/
def Outside (depth : Nat) (t : Token) (tokens : List Token) : Prop :=
  ∃ front back, tokens = front ++ t :: back ∧ bracketDepth depth front = 0

/-- The tokens that stand where no bracket is open, `depth` being open in front. -/
def outsideTokens (depth : Nat) : List Token → List Token
  | [] => []
  | t :: ts =>
      let later := outsideTokens (bracketDepth depth [t]) ts
      if depth = 0 then t :: later else later

/-! ### Single tokens -/

namespace Token

/-- A token is not two different keywords or operators. -/
theorem is_of_isAny {t : Token} {texts : List String} {text : String}
    (hany : t.isAny texts = true) (htext : text ∉ texts) : t.is text = false := by
  obtain ⟨other, hmem, hother⟩ := List.any_eq_true.1 hany
  refine Bool.eq_false_iff.2 fun his => htext ?_
  rw [← text_of_is his, text_of_is hother]
  exact hmem

theorem is_of_is {t : Token} {text other : String} (his : t.is text = true)
    (hne : other ≠ text) : t.is other = false :=
  Bool.eq_false_iff.2 fun hother => hne ((text_of_is hother).symm.trans (text_of_is his))

/-- A token that opens a bracket closes none. -/
theorem closes_of_opens {t : Token} (h : t.opens = true) : t.closes = false := by
  have hclosers : ∀ text ∈ [")", "]", "\x7d"], t.is text = false := by
    intro text htext
    refine is_of_isAny h ?_
    simp only [List.mem_cons, List.not_mem_nil, or_false] at htext
    rcases htext with rfl | rfl | rfl <;> decide
  exact List.any_eq_false.2 fun text htext => Bool.eq_false_iff.1 (hclosers text htext)

/-- A token that opens a bracket asks for the one that closes it. -/
theorem closer?_of_opens {t : Token} (h : t.opens = true) : ∃ closer, t.closer? = some closer := by
  unfold closer?
  simp only [opens, isAny, List.any_cons, List.any_nil, Bool.or_false, Bool.or_eq_true] at h
  split
  · exact ⟨_, rfl⟩
  · split
    · exact ⟨_, rfl⟩
    · split
      · exact ⟨_, rfl⟩
      · simp_all

theorem closer?_of_not_opens {t : Token} (h : ¬ t.opens = true) : t.closer? = none := by
  simp only [opens, isAny, List.any_cons, List.any_nil, Bool.or_false, Bool.or_eq_true,
    not_or] at h
  simp [closer?, h.1, h.2.1, h.2.2]

end Token

/-! ### Token by token -/

section

variable {awaited : List String} {closer : String} {t u : Token} {ts : List Token} {depth : Nat}

theorem bracketsNest_opens (h : t.closer? = some closer) :
    bracketsNest awaited (t :: ts) = bracketsNest (closer :: awaited) ts := by
  simp only [bracketsNest, h]

theorem bracketsNest_closes (ht : ¬ t.opens = true) (hc : t.closes = true) :
    bracketsNest (closer :: awaited) (t :: ts) = (t.is closer && bracketsNest awaited ts) := by
  simp only [bracketsNest, Token.closer?_of_not_opens ht, hc, if_true]

theorem bracketsNest_word (ht : ¬ t.opens = true) (hc : ¬ t.closes = true) :
    bracketsNest awaited (t :: ts) = bracketsNest awaited ts := by
  rw [bracketsNest.eq_def]
  simp only [Token.closer?_of_not_opens ht, hc, Bool.false_eq_true, if_false]

theorem bracketDepth_opens (ht : t.opens = true) : bracketDepth depth [t] = depth + 1 := by
  simp [bracketDepth, ht]

theorem bracketDepth_closes (ht : ¬ t.opens = true) (hc : t.closes = true) :
    bracketDepth depth [t] = depth - 1 := by
  simp [bracketDepth, ht, hc]

theorem bracketDepth_word (ht : ¬ t.opens = true) (hc : ¬ t.closes = true) :
    bracketDepth depth [t] = depth := by
  simp [bracketDepth, ht, hc]

theorem bracketDepth_cons :
    bracketDepth depth (t :: ts) = bracketDepth (bracketDepth depth [t]) ts := by
  by_cases ht : t.opens = true
  · rw [bracketDepth_opens ht, bracketDepth, if_pos ht]
  · by_cases hc : t.closes = true
    · rw [bracketDepth_closes ht hc, bracketDepth, if_neg ht, if_pos hc]
    · rw [bracketDepth_word ht hc, bracketDepth, if_neg ht, if_neg hc]

theorem bracketDepth_append (front back : List Token) :
    bracketDepth depth (front ++ back) = bracketDepth (bracketDepth depth front) back := by
  induction front generalizing depth with
  | nil => rfl
  | cons t front ih => rw [List.cons_append, bracketDepth_cons, ih, ← bracketDepth_cons]

theorem not_outside_nil : ¬ Outside depth u [] := by
  rintro ⟨front, back, htokens, -⟩
  simp at htokens

/-- A token that stands outside is the first one, or stands outside behind it. -/
theorem outside_cons : Outside depth u (t :: ts) ↔
    (depth = 0 ∧ u = t) ∨ Outside (bracketDepth depth [t]) u ts := by
  constructor
  · rintro ⟨front, back, htokens, hdepth⟩
    cases front with
    | nil =>
        obtain ⟨rfl, rfl⟩ := List.cons.inj htokens
        exact .inl ⟨hdepth, rfl⟩
    | cons first front =>
        obtain ⟨rfl, rfl⟩ := List.cons.inj htokens
        exact .inr ⟨front, back, rfl, bracketDepth_cons.symm.trans hdepth⟩
  · rintro (⟨hdepth, rfl⟩ | ⟨front, back, rfl, hdepth⟩)
    · exact ⟨[], ts, rfl, hdepth⟩
    · exact ⟨t :: front, back, rfl, bracketDepth_cons.trans hdepth⟩

/-- Behind tokens that leave no bracket open, what stands outside of the others stands outside. -/
theorem Outside.append {front back : List Token} (hfront : bracketDepth depth front = 0)
    (h : Outside 0 u back) : Outside depth u (front ++ back) := by
  obtain ⟨front', back', rfl, hdepth⟩ := h
  refine ⟨front ++ front', back', by rw [List.append_assoc], ?_⟩
  rw [bracketDepth_append, hfront, hdepth]

theorem mem_outsideTokens : u ∈ outsideTokens depth ts ↔ Outside depth u ts := by
  induction ts generalizing depth with
  | nil => exact iff_of_false List.not_mem_nil not_outside_nil
  | cons t ts ih =>
      rw [outside_cons, ← ih, outsideTokens]
      by_cases hdepth : depth = 0 <;> simp [hdepth]

end

/-- Tokens whose brackets nest, one by one: one that opens, one that closes the last that was opened, or
any other. -/
inductive Nests : List String → List Token → Prop
  | nil : Nests [] []
  | opens {awaited : List String} {closer : String} {t : Token} {ts : List Token}
      (ht : t.opens = true) (hcloser : t.closer? = some closer) (later : Nests (closer :: awaited) ts) :
      Nests awaited (t :: ts)
  | closes {awaited : List String} {closer : String} {t : Token} {ts : List Token}
      (ht : ¬ t.opens = true) (hc : t.closes = true) (his : t.is closer = true)
      (later : Nests awaited ts) : Nests (closer :: awaited) (t :: ts)
  | word {awaited : List String} {t : Token} {ts : List Token} (ht : ¬ t.opens = true)
      (hc : ¬ t.closes = true) (later : Nests awaited ts) : Nests awaited (t :: ts)

/-- **The test finds out whether brackets nest.** -/
theorem bracketsNest_iff {awaited : List String} {tokens : List Token} :
    bracketsNest awaited tokens = true ↔ Nests awaited tokens := by
  constructor
  · intro h
    induction tokens generalizing awaited with
    | nil =>
        obtain rfl : awaited = [] := List.isEmpty_iff.1 h
        exact .nil
    | cons t ts ih =>
        by_cases ht : t.opens = true
        · obtain ⟨closer, hcloser⟩ := Token.closer?_of_opens ht
          rw [bracketsNest_opens hcloser] at h
          exact .opens ht hcloser (ih h)
        · by_cases hc : t.closes = true
          · cases awaited with
            | nil => simp [bracketsNest, Token.closer?_of_not_opens ht, hc] at h
            | cons closer awaited =>
                rw [bracketsNest_closes ht hc, Bool.and_eq_true] at h
                exact .closes ht hc h.1 (ih h.2)
          · rw [bracketsNest_word ht hc] at h
            exact .word ht hc (ih h)
  · intro h
    induction h with
    | nil => rfl
    | opens ht hcloser _ ih => rw [bracketsNest_opens hcloser, ih]
    | closes ht hc his _ ih => rw [bracketsNest_closes ht hc, his, ih, Bool.and_self]
    | word ht hc _ ih => rw [bracketsNest_word ht hc, ih]

theorem wellBracketed_iff {tokens : List Token} : WellBracketed tokens ↔ Nests [] tokens := bracketsNest_iff

/-- Where brackets nest, none is closed outside of all brackets. -/
theorem Nests.not_closes {awaited : List String} {tokens : List Token} {u : Token}
    (h : Nests awaited tokens) (hu : Outside awaited.length u tokens) : u.closes = false := by
  induction h with
  | nil => exact absurd hu not_outside_nil
  | @opens awaited closer t ts ht _ _ ih =>
      rcases outside_cons.1 hu with ⟨-, rfl⟩ | hlater
      · exact Token.closes_of_opens ht
      · rw [bracketDepth_opens ht] at hlater
        exact ih hlater
  | @closes awaited closer t ts ht hc _ _ ih =>
      rcases outside_cons.1 hu with ⟨hzero, -⟩ | hlater
      · exact absurd hzero (Nat.succ_ne_zero _)
      · rw [bracketDepth_closes ht hc] at hlater
        exact ih hlater
  | @word awaited t ts ht hc _ ih =>
      rcases outside_cons.1 hu with ⟨-, rfl⟩ | hlater
      · exact Bool.eq_false_iff.2 hc
      · rw [bracketDepth_word ht hc] at hlater
        exact ih hlater

/-- The brackets of the tokens behind some others nest, with as many awaited as are open there. -/
theorem Nests.split {awaited : List String} {front back : List Token}
    (h : Nests awaited (front ++ back)) :
    ∃ later, Nests later back ∧ later.length = bracketDepth awaited.length front := by
  induction front generalizing awaited with
  | nil => exact ⟨awaited, h, rfl⟩
  | cons t front ih =>
      rw [bracketDepth_cons]
      cases h with
      | opens ht hcloser hlater =>
          rw [bracketDepth_opens ht]
          exact ih hlater
      | closes ht hc his hlater =>
          rw [bracketDepth_closes ht hc]
          exact ih hlater
      | word ht hc hlater =>
          rw [bracketDepth_word ht hc]
          exact ih hlater

/-! ### The end of an expression -/

section

variable {stops : List String} {t : Token} {ts : List Token} {depth : Nat}

theorem expressionLength_opens (ht : t.opens = true)
    (hstop : ¬ (depth = 0 ∧ t.isAny stops = true)) :
    expressionLength stops depth (t :: ts) = expressionLength stops (depth + 1) ts + 1 := by
  simp only [expressionLength, if_neg hstop, if_pos ht]

theorem expressionLength_closes (ht : ¬ t.opens = true) (hc : t.closes = true) :
    expressionLength stops (depth + 1) (t :: ts) = expressionLength stops depth ts + 1 := by
  have hstop : ¬ (depth + 1 = 0 ∧ t.isAny stops = true) := fun h => absurd h.1 (Nat.succ_ne_zero _)
  simp only [expressionLength, if_neg hstop, if_neg ht, if_pos hc]

theorem expressionLength_word (ht : ¬ t.opens = true) (hc : ¬ t.closes = true)
    (hstop : ¬ (depth = 0 ∧ t.isAny stops = true)) :
    expressionLength stops depth (t :: ts) = expressionLength stops depth ts + 1 := by
  rw [expressionLength.eq_def]
  simp only [if_neg hstop, if_neg ht, if_neg hc]

end

/-- **The end of an expression is looked for behind tokens whose brackets nest**, if no stop stands
outside of them. -/
theorem expressionLength_append {stops awaited : List String} {tokens : List Token}
    (after : List Token) (h : Nests awaited tokens)
    (hstops : ∀ t, Outside awaited.length t tokens → t.isAny stops = false) :
    expressionLength stops awaited.length (tokens ++ after) =
      tokens.length + expressionLength stops 0 after := by
  have hfirst {depth : Nat} {t : Token} {ts : List Token}
      (hstops : ∀ u, Outside depth u (t :: ts) → u.isAny stops = false) :
      ¬ (depth = 0 ∧ t.isAny stops = true) := by
    rintro ⟨hzero, hstop⟩
    rw [hstops t (outside_cons.2 (.inl ⟨hzero, rfl⟩))] at hstop
    cases hstop
  induction h with
  | nil => simp
  | @opens awaited closer t ts ht _ _ ih =>
      have hlater := ih fun u hu => hstops u (outside_cons.2 (.inr (by rwa [bracketDepth_opens ht])))
      rw [List.cons_append, expressionLength_opens ht (hfirst hstops), List.length_cons]
      rw [List.length_cons] at hlater
      omega
  | @closes awaited closer t ts ht hc _ _ ih =>
      have hlater := ih fun u hu => hstops u (outside_cons.2 (.inr (by rwa [bracketDepth_closes ht hc])))
      rw [List.cons_append, List.length_cons, expressionLength_closes ht hc, List.length_cons]
      omega
  | @word awaited t ts ht hc _ ih =>
      have hlater := ih fun u hu => hstops u (outside_cons.2 (.inr (by rwa [bracketDepth_word ht hc])))
      rw [List.cons_append, expressionLength_word ht hc (hfirst hstops), List.length_cons]
      omega

/-- An expression ends among tokens that close more brackets than it has opened. -/
theorem expressionLength_lt {stops awaited : List String} {tokens : List Token} {depth : Nat}
    (after : List Token) (h : Nests awaited tokens) (hdepth : depth < awaited.length) :
    expressionLength stops depth (tokens ++ after) < tokens.length := by
  induction h generalizing depth with
  | nil => exact absurd hdepth (Nat.not_lt_zero depth)
  | @opens awaited closer t ts ht _ _ ih =>
      have hlater : expressionLength stops (depth + 1) (ts ++ after) < ts.length :=
        ih (Nat.succ_lt_succ hdepth)
      by_cases hstop : depth = 0 ∧ t.isAny stops = true
      · simp [expressionLength, hstop]
      · rw [List.cons_append, expressionLength_opens ht hstop, List.length_cons]
        omega
  | @closes awaited closer t ts ht hc _ _ ih =>
      cases depth with
      | zero =>
          by_cases hstop : t.isAny stops = true <;>
            simp [expressionLength, hstop, Bool.eq_false_iff.2 ht, hc]
      | succ depth =>
          have hlater : expressionLength stops depth (ts ++ after) < ts.length :=
            ih (Nat.lt_of_succ_lt_succ hdepth)
          rw [List.cons_append, expressionLength_closes ht hc, List.length_cons]
          omega
  | @word awaited t ts ht hc _ ih =>
      have hlater := ih hdepth
      by_cases hstop : depth = 0 ∧ t.isAny stops = true
      · simp [expressionLength, hstop]
      · rw [List.cons_append, expressionLength_word ht hc hstop, List.length_cons]
        omega

/-- **An expression ends in front of a stop that stands outside of the brackets.** -/
theorem expressionLength_outside {stops awaited : List String} {tokens : List Token}
    (after : List Token) {u : Token} (h : Nests awaited tokens)
    (hu : Outside awaited.length u tokens) (hstop : u.isAny stops = true) :
    ∃ front t back, tokens = front ++ t :: back ∧ bracketDepth awaited.length front = 0 ∧
      t.isAny stops = true ∧
      expressionLength stops awaited.length (tokens ++ after) = front.length := by
  -- The first token stops the expression, or the scan goes on behind it.
  have hstep {depth next : Nat} {t : Token} {ts : List Token} (hu : Outside depth u (t :: ts))
      (hdepth : bracketDepth depth [t] = next)
      (hscan : ¬ (depth = 0 ∧ t.isAny stops = true) →
        expressionLength stops depth (t :: (ts ++ after)) =
          expressionLength stops next (ts ++ after) + 1)
      (ih : Outside next u ts → ∃ front t' back, ts = front ++ t' :: back ∧
        bracketDepth next front = 0 ∧ t'.isAny stops = true ∧
        expressionLength stops next (ts ++ after) = front.length) :
      ∃ front t' back, t :: ts = front ++ t' :: back ∧ bracketDepth depth front = 0 ∧
        t'.isAny stops = true ∧
        expressionLength stops depth (t :: (ts ++ after)) = front.length := by
    by_cases hfirst : depth = 0 ∧ t.isAny stops = true
    · refine ⟨[], t, ts, rfl, hfirst.1, hfirst.2, ?_⟩
      simp only [expressionLength, if_pos hfirst, List.length_nil]
    · rcases outside_cons.1 hu with ⟨hzero, rfl⟩ | hlater
      · exact absurd ⟨hzero, hstop⟩ hfirst
      · rw [hdepth] at hlater
        obtain ⟨front, t', back, hts, hzero, ht', hlength⟩ := ih hlater
        refine ⟨t :: front, t', back, by rw [hts, List.cons_append], ?_, ht', ?_⟩
        · rw [bracketDepth_cons, hdepth, hzero]
        · rw [hscan hfirst, hlength, List.length_cons]
  induction h with
  | nil => exact absurd hu not_outside_nil
  | @opens awaited closer t ts ht _ _ ih =>
      exact hstep hu (bracketDepth_opens ht) (fun hfirst => expressionLength_opens ht hfirst) ih
  | @closes awaited closer t ts ht hc _ _ ih =>
      exact hstep hu (bracketDepth_closes ht hc) (fun _ => expressionLength_closes ht hc) ih
  | @word awaited t ts ht hc _ ih =>
      exact hstep hu (bracketDepth_word ht hc) (fun hfirst => expressionLength_word ht hc hfirst) ih

/-! ### The header of a loop -/

section

variable {t : Token} {ts : List Token} {depth : Nat}

theorem isForEachHeader_opens (ht : t.opens = true) :
    isForEachHeader depth (t :: ts) = isForEachHeader (depth + 1) ts := by
  simp only [isForEachHeader, if_pos ht]

theorem isForEachHeader_closes (ht : ¬ t.opens = true) (hc : t.closes = true) :
    isForEachHeader (depth + 1) (t :: ts) = isForEachHeader depth ts := by
  simp only [isForEachHeader, if_neg ht, if_pos hc]

theorem isForEachHeader_word (ht : ¬ t.opens = true) (hc : ¬ t.closes = true)
    (hstop : ¬ (depth = 0 ∧ t.is ";" = true)) :
    isForEachHeader depth (t :: ts) =
      if depth = 0 ∧ t.is ":" = true then true else isForEachHeader depth ts := by
  rw [isForEachHeader.eq_def]
  simp only [if_neg ht, if_neg hc, if_neg hstop]

end

/-- **A colon that stands outside of the brackets is found**, and without one the header is looked
through behind tokens whose brackets nest, if no semicolon stands outside of them. -/
theorem isForEachHeader_append {awaited : List String} {tokens : List Token} (after : List Token)
    (h : Nests awaited tokens)
    (hstops : ∀ t, Outside awaited.length t tokens → t.is ";" = false) :
    isForEachHeader awaited.length (tokens ++ after) = true ↔
      (∃ t, Outside awaited.length t tokens ∧ t.is ":" = true) ∨
        isForEachHeader 0 after = true := by
  -- What stands outside behind a token that is no colon there.
  have hskip {depth next : Nat} {t : Token} {ts : List Token}
      (hdepth : bracketDepth depth [t] = next) (hcolon : ¬ (depth = 0 ∧ t.is ":" = true)) :
      (∃ u, Outside depth u (t :: ts) ∧ u.is ":" = true) ↔
        ∃ u, Outside next u ts ∧ u.is ":" = true := by
    subst hdepth
    constructor
    · rintro ⟨u, hu, hu'⟩
      rcases outside_cons.1 hu with ⟨hzero, rfl⟩ | hlater
      · exact absurd ⟨hzero, hu'⟩ hcolon
      · exact ⟨u, hlater, hu'⟩
    · rintro ⟨u, hu, hu'⟩
      exact ⟨u, outside_cons.2 (.inr hu), hu'⟩
  have hlater {depth next : Nat} {t : Token} {ts : List Token}
      (hdepth : bracketDepth depth [t] = next)
      (hstops : ∀ u, Outside depth u (t :: ts) → u.is ";" = false) :
      ∀ u, Outside next u ts → u.is ";" = false := by
    subst hdepth
    exact fun u hu => hstops u (outside_cons.2 (.inr hu))
  induction h with
  | nil => simp [not_outside_nil]
  | @opens awaited closer t ts ht _ _ ih =>
      have hdepth : bracketDepth awaited.length [t] = _ := bracketDepth_opens ht
      have hcolon : t.is ":" = false := Token.is_of_isAny ht (by decide)
      rw [List.cons_append, isForEachHeader_opens ht, hskip hdepth (by simp [hcolon])]
      exact ih (hlater hdepth hstops)
  | @closes awaited closer t ts ht hc _ _ ih =>
      have hdepth : bracketDepth (awaited.length + 1) [t] = _ := bracketDepth_closes ht hc
      have hcolon : t.is ":" = false := Token.is_of_isAny hc (by decide)
      rw [List.cons_append, List.length_cons, isForEachHeader_closes ht hc,
        hskip hdepth (by simp [hcolon])]
      exact ih (hlater hdepth hstops)
  | @word awaited t ts ht hc _ ih =>
      have hdepth : bracketDepth awaited.length [t] = _ := bracketDepth_word ht hc
      have hsemicolon : ¬ (awaited.length = 0 ∧ t.is ";" = true) := by
        rintro ⟨hzero, hstop⟩
        rw [hstops t (outside_cons.2 (.inl ⟨hzero, rfl⟩))] at hstop
        cases hstop
      rw [List.cons_append, isForEachHeader_word ht hc hsemicolon]
      by_cases hcolon : awaited.length = 0 ∧ t.is ":" = true
      · rw [if_pos hcolon]
        exact iff_of_true rfl (.inl ⟨t, outside_cons.2 (.inl ⟨hcolon.1, rfl⟩), hcolon.2⟩)
      · rw [if_neg hcolon, hskip hdepth hcolon]
        exact ih (hlater hdepth hstops)

end JavaOutline
