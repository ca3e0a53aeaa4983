/-
**Phrases in which brackets are paired.**

Names, annotations, modifiers and types are neat: square brackets come in pairs, and the arguments of
types and of annotations are groups that are passed as a whole.  An expression is passed as a whole as
well, and may run into the end of the text.

Main results:

* `PairsAt.bracketed`, `expressionUntil_pairs` — **what is passed as a whole is whole**;
* the instances — names, annotations, modifiers and types are neat.
-/

import JavaOutline.Proofs.PairedReading

set_option autoImplicit false
set_option synthInstance.maxSize 100000

namespace JavaOutline

open JavaOutline.Parser

/-! ### Several tokens -/

/-- A token with the text of no bracket is none. -/
theorem Token.not_bracket_of_text {t : Token}
    (h : t.text ∉ ["(", "[", "\x7b"] ∧ t.text ∉ [")", "]", "\x7d"]) :
    ¬ t.opens = true ∧ ¬ t.closes = true := by
  have hnot {texts : List String} (htext : t.text ∉ texts) : ¬ t.isAny texts = true := by
    intro hany
    obtain ⟨text, hmem, his⟩ := List.any_eq_true.1 hany
    exact htext (Token.text_of_is his ▸ hmem)
  exact ⟨hnot h.1, hnot h.2⟩

section

variable {α : Type} {scan : Scan} {closed : Bool} {awaited : List String} {s : State}

/-- Tokens that are no brackets nest by themselves. -/
theorem Paired.tokens {words ts : List Token} (hrest : s.rest = words ++ ts)
    (hwords : ∀ t ∈ words, ¬ t.opens = true ∧ ¬ t.closes = true)
    (hn : (s.skip words.length).errors = #[]) : Paired closed [] s [] (s.skip words.length) := by
  have hindex : (s.skip words.length).index = s.index + words.length :=
    State.index_skip (by rw [hrest, List.length_append]; exact Nat.le_add_right _ _)
  rw [State.skip_errors] at hn
  refine ⟨hn, fun _ => ?_⟩
  rw [hindex, State.rest_skip hrest, hrest]
  exact .words hwords

/-- Tokens that are no brackets are passed. -/
theorem PairsAt.skip (words : List Token) {ts : List Token} {f : Unit → Parser α}
    [∀ u, Passing (f u)] (hrest : s.rest = words ++ ts)
    (hwords : ∀ t ∈ words, ¬ t.opens = true ∧ ¬ t.closes = true)
    (h : Pairs scan closed awaited (f ())) :
    PairsAt scan closed awaited s (Parser.skip words.length >>= f) := by
  refine after true (fun _ {_ m} hok hm => ?_) (.inl rfl) fun {_ m} _ => h m
  cases hok
  exact .tokens hrest hwords hm

theorem PairsAt.skipTwo {t u : Token} {ts : List Token} {f : Unit → Parser α} [∀ u, Passing (f u)]
    (hrest : s.rest = t :: u :: ts) (ht : ¬ t.opens = true ∧ ¬ t.closes = true)
    (hu : ¬ u.opens = true ∧ ¬ u.closes = true) (h : Pairs scan closed awaited (f ())) :
    PairsAt scan closed awaited s (Parser.skip 2 >>= f) :=
  PairsAt.skip [t, u] hrest
    (List.forall_mem_cons.2 ⟨ht, List.forall_mem_cons.2 ⟨hu, fun _ => nofun⟩⟩) h

/-- A dot and a name are no brackets. -/
theorem PairsAt.skipPart {f : Unit → Parser α} [∀ u, Passing (f u)]
    (hsees : (s.sees "." && s.seesIdentifierSecond) = true)
    (h : Pairs scan closed awaited (f ())) :
    PairsAt scan closed awaited s (Parser.skip 2 >>= f) := by
  obtain ⟨hpoint, hname⟩ := Bool.and_eq_true_iff.1 hsees
  obtain ⟨t, u, ts, hrest, hu⟩ := State.exists_second hname
  rw [State.sees_cons hrest] at hpoint
  exact PairsAt.skipTwo hrest (Token.not_bracket_of_is hpoint (by decide))
    (Token.not_bracket_of_isIdentifier hu) h

/-- A pair of words that are no brackets. -/
theorem PairsAt.skipPair {first second : String} [hfirst : PlainWord first]
    [hsecond : PlainWord second] {f : Unit → Parser α} [∀ u, Passing (f u)]
    (hsees : s.seesPair first second = true) (h : Pairs scan closed awaited (f ())) :
    PairsAt scan closed awaited s (Parser.skip 2 >>= f) := by
  obtain ⟨t, u, ts, hrest, ht, hu⟩ := State.exists_pair hsees
  exact PairsAt.skipTwo hrest (Token.not_bracket_of_is ht hfirst.plain)
    (Token.not_bracket_of_is hu hsecond.plain) h

/-- A pair of square brackets nests by itself. -/
theorem Paired.squares (hsees : s.seesPair "[" "]" = true) (hn : (s.skip 2).errors = #[]) :
    Paired closed [] s [] (s.skip 2) := by
  obtain ⟨t, u, ts, hrest, ht, hu⟩ := State.exists_pair hsees
  have hindex : (s.skip 2).index = s.index + 2 := State.index_skip (by simp [hrest])
  have hround : t.is "(" = false := Token.is_of_is ht (by decide)
  have hopens : ¬ u.opens = true := fun hopens => by
    rw [Token.is_of_isAny hopens (by decide)] at hu
    cases hu
  rw [State.skip_errors] at hn
  refine ⟨hn, fun _ => ?_⟩
  rw [hindex, State.rest_skip_two hrest, hrest]
  exact .opens (List.any_eq_true.2 ⟨"[", by decide, ht⟩) (by simp [Token.closer?, hround, ht])
    (.closes hopens (List.any_eq_true.2 ⟨"]", by decide, hu⟩) hu .done)

/-- **A group is passed as a whole.** -/
theorem PairsAt.bracketed {opener closer : String} {f : Span → Parser α} [∀ span, Passing (f span)]
    (hpair : (opener, closer) ∈ [("<", ">"), ("(", ")")]) (hsees : s.sees opener = true)
    (h : ∀ span, Pairs scan closed awaited (f span)) :
    PairsAt scan closed awaited s (Parser.bracketed opener closer >>= f) := by
  refine after true (fun _ {span m} hok hm => ?_) (.inl rfl) fun {span m} _ => h span m
  obtain ⟨herrors, group, hrest, hindex, hgroup⟩ := group_of_bracketed hsees hok
  refine ⟨herrors.symm.trans hm, fun _ => ?_⟩
  show Nesting [] s.index s.rest ((Parser.bracketed opener closer _ s).stretch _ s) m.index m.rest
  rw [hok, Answer.stretch, hrest, hindex, Nat.add_sub_cancel_left]
  exact .whole ⟨hpair, hgroup⟩ .done

end

/-! ### Neat phrases -/

section

variable {scan : Scan}

instance (text : String) [PlainWord text] : Neat scan (expect text) where
  pairs _ _ _ _ hok hn := by
    obtain ⟨hsees, rfl⟩ := sees_of_expect hok
    exact .word hsees hn

instance (text : String) : Neat scan (sees text) where
  pairs _ _ _ _ hok hn := by
    cases hok
    exact .still hn

instance (text : String) [PlainWord text] : Neat scan (accept text) where
  pairs _ _ accepted _ hok hn := by
    cases accepted with
    | true =>
        obtain ⟨hsees, rfl⟩ := accept_true hok
        exact .word hsees hn
    | false =>
        obtain ⟨-, rfl⟩ := accept_false hok
        exact .still hn

instance : Neat scan identifier where
  pairs _ _ _ _ hok hn := by
    obtain ⟨hsees, rfl⟩ := name_of_identifier hok
    exact .name hsees hn

instance : Neat scan qualifiedName where
  pairs _ := .pass fun _ _ => .take (.gather fun _ => .state (.ite (fun hsees =>
    .advanceWord (Bool.and_eq_true_iff.1 hsees).1 (.pass fun _ _ => .give)) fun _ => .give))
    fun _ _ => .give

instance : Neat scan annotations where
  pairs := .repeatWhile fun _ => .state (.ite (fun hsees => .advanceWord
    (Bool.and_eq_true_iff.1 hsees).1 (.pass fun _ _ => .sees (.ite (fun hsees =>
      .bracketed (by decide) hsees fun _ _ => .give) fun _ => .give))) fun _ => .give)

/-- A modifier is no bracket. -/
theorem not_bracket_of_modifier? {s : State} {word : String} (h : s.modifier? = some word) :
    ∃ t ts, s.rest = t :: ts ∧ ¬ t.opens = true ∧ ¬ t.closes = true := by
  have hwords : ∀ word ∈ modifierWords,
      word ∉ ["(", "[", "\x7b"] ∧ word ∉ [")", "]", "\x7d"] := by decide
  unfold State.modifier? at h
  split at h
  next t ts hrest =>
    split at h
    next hword =>
      have hmem := List.contains_iff_mem.1 (Bool.and_eq_true_iff.1 hword).2
      exact ⟨t, ts, hrest, Token.not_bracket_of_text (hwords _ hmem)⟩
    next => cases h
  next => cases h

/-- The words `sealed` and `non-sealed` have no brackets. -/
theorem not_bracket_of_sealedLength? {s : State} {k : Nat} (h : s.sealedLength? = some k) :
    ∃ words ts, s.rest = words ++ ts ∧ words.length = k ∧
      ∀ t ∈ words, ¬ t.opens = true ∧ ¬ t.closes = true := by
  have hname {t : Token} {name : String} (ht : t.isName name = true) :
      ¬ t.opens = true ∧ ¬ t.closes = true :=
    Token.not_bracket_of_isIdentifier (Bool.and_eq_true_iff.1 ht).1
  unfold State.sealedLength? at h
  split at h
  next t next rest hrest =>
    split at h
    next hsealed =>
      split at h
      · cases h
        exact ⟨[t], next :: rest, hrest, rfl, fun u hu => List.mem_singleton.1 hu ▸ hname hsealed⟩
      · cases h
    next =>
      split at h
      next hnon =>
        split at h
        next hothers =>
          cases h
          obtain ⟨hminus, hsealed⟩ := Bool.and_eq_true_iff.1 hothers
          obtain ⟨u, hhead, hu⟩ := (Option.any_eq_true _ _).1 hsealed
          obtain ⟨ts, rfl⟩ := List.head?_eq_some_iff.1 hhead
          refine ⟨[t, next, u], ts, hrest, rfl, ?_⟩
          have htext : u.text = "sealed" := beq_iff_eq.1 hu
          simp only [List.mem_cons, List.not_mem_nil, or_false]
          rintro v (rfl | rfl | rfl)
          · exact hname hnon
          · exact Token.not_bracket_of_is hminus (by decide)
          · exact Token.not_bracket_of_text (by rw [htext]; decide)
        next => cases h
      next => cases h
  next => cases h

instance (s : State) : Moves (modifierTurn s) := by
  unfold modifierTurn
  split <;> infer_instance

/-- A turn of reading modifiers passes words that are no brackets, or else annotations. -/
theorem modifierTurn_pairsAt {s : State} : PairsAt scan true [] s (modifierTurn s) := by
  intro hs value n hok hn
  cases hword : s.modifier? with
  | some word =>
      obtain ⟨t, ts, hrest, ht⟩ := not_bracket_of_modifier? hword
      simp only [modifierTurn, hword] at hok
      obtain ⟨_, _, hadvance, hok⟩ := bind_eq_ok.1 hok
      cases hadvance
      obtain ⟨-, rfl⟩ := pure_eq_ok.1 hok
      have hnone : stretches (modifierTurn s) (scan.setting false) s = [] :=
        if_neg fun h => Option.some_ne_none word (hword.symm.trans h.1)
      rw [hnone]
      exact .token hrest ht hn
  | none =>
    cases hlength : s.sealedLength? with
    | some k =>
        obtain ⟨words, ts, hrest, rfl, hwords⟩ := not_bracket_of_sealedLength? hlength
        simp only [modifierTurn, hword, hlength] at hok
        obtain ⟨_, _, hskip, hok⟩ := bind_eq_ok.1 hok
        cases hskip
        obtain ⟨-, rfl⟩ := pure_eq_ok.1 hok
        have hnone : stretches (modifierTurn s) (scan.setting false) s = [] :=
          if_neg fun h => Option.some_ne_none words.length (hlength.symm.trans h.2.1)
        rw [hnone]
        exact .tokens hrest hwords hn
    | none =>
        simp only [modifierTurn, hword, hlength] at hok
        split at hok
        next hsees =>
          obtain ⟨_, m, hannotations, hok⟩ := bind_eq_ok.1 hok
          obtain ⟨-, rfl⟩ := pure_eq_ok.1 hok
          have hsome : stretches (modifierTurn s) (scan.setting false) s =
              stretches annotations (scan.setting false) s := if_pos ⟨hword, hlength, hsees⟩
          rw [hsome]
          exact Neat.pairs s hs hannotations hn
        next hsees =>
          obtain ⟨-, rfl⟩ := pure_eq_ok.1 hok
          have hnone : stretches (modifierTurn s) (scan.setting false) s = [] :=
            if_neg fun h => hsees h.2.2
          rw [hnone]
          exact .still hn

instance : Neat scan modifiers where
  pairs := by
    show Pairs scan true [] (gather (state >>= modifierTurn))
    exact .gather fun _ => .state modifierTurn_pairsAt

instance : Neat scan dimensions where
  pairs := .repeatWhile fun _ => .state (.ite (fun hsees => by
    refine .after true (fun _ {_ _} hok hn => ?_) (.inl rfl) fun _ => .give
    cases hok
    exact .squares hsees hn) fun _ => .give)

instance : Neat scan typeSuffixes where
  pairs := .repeatWhile fun _ => .state (.ite
    (fun hsees => .bracketed (by decide) hsees fun _ _ => .give) fun _ =>
    .ite (fun hsees => .skipPart hsees fun _ => .give) fun _ =>
    .ite (fun hsees => .advanceWord (State.sees_of_seesPair hsees) (.pass fun _ _ => .give))
      fun _ => .give)

/-- A type does not begin with a bracket. -/
theorem not_bracket_of_typeStart {s : State}
    (h : (s.rest.head?.any Token.isTypeStart || s.sees "?") = true) :
    ∃ t ts, s.rest = t :: ts ∧ ¬ t.opens = true ∧ ¬ t.closes = true := by
  have hwords : ∀ word ∈ primitiveTypes,
      word ∉ ["(", "[", "\x7b"] ∧ word ∉ [")", "]", "\x7d"] := by decide
  rcases Bool.or_eq_true_iff.1 h with hstart | hwildcard
  · obtain ⟨t, hhead, ht⟩ := (Option.any_eq_true _ _).1 hstart
    obtain ⟨ts, hts⟩ := List.head?_eq_some_iff.1 hhead
    refine ⟨t, ts, hts, ?_⟩
    rcases Bool.or_eq_true_iff.1 ht with hname | hprimitive
    · exact Token.not_bracket_of_isIdentifier hname
    · have hmem := List.contains_iff_mem.1 (Bool.and_eq_true_iff.1 hprimitive).2
      exact Token.not_bracket_of_text (hwords _ hmem)
  · obtain ⟨t, ts, hrest, ht⟩ := State.exists_cons_of_sees hwildcard
    exact ⟨t, ts, hrest, Token.not_bracket_of_is ht (by decide)⟩

instance : Neat scan typeReference where
  pairs _ := .pass fun _ _ => .state (.ite (fun hstart => by
    obtain ⟨t, ts, hrest, ht⟩ := not_bracket_of_typeStart hstart
    exact .advance (.token hrest ht) (.pass fun _ _ => .pass fun _ _ => .state .give))
      fun _ => .unexpected)

instance : Neat scan typeList where
  pairs := .commaSeparated .of_neat

instance : Neat scan typeParameters where
  pairs _ := .state (.ite (fun hsees => .bracketed (by decide) hsees fun _ _ => .state .give)
    fun _ => .give)

/-! ### Expressions and variables -/

/-- **An expression is passed as a whole**, and its brackets are even if it does not run into the end of
the text. -/
theorem expressionUntil_pairs (stops : List String) : Pairs scan false [] (expressionUntil stops) := by
  intro s _ e n hok hn
  show Paired false [] s ((expressionUntil stops _ s).stretch (.expression stops) s) n
  rw [hok, Answer.stretch]
  obtain ⟨first, others, -, rfl, rfl⟩ := expressionUntil_eq_ok hok
  have hle := expressionLength_le stops 0 s.rest
  have hcount := @bracketsCount_expression stops 0 s.rest
  have hstop := @not_stop_of_outside stops 0 s.rest
  have hindex := State.index_skip hle
  obtain ⟨part, back, hrest, hlength⟩ : ∃ part back, s.rest = part ++ back ∧
      part.length = expressionLength stops 0 s.rest :=
    ⟨_, _, (List.take_append_drop _ _).symm, by rw [List.length_take, Nat.min_eq_left hle]⟩
  rw [← hlength] at hn hcount hstop hindex ⊢
  rw [hrest, List.take_left] at hcount hstop
  rw [List.drop_left] at hcount
  rw [State.skip_errors] at hn
  refine ⟨hn, fun hend => ?_⟩
  have hend := hend.resolve_left Bool.false_ne_true
  rw [State.rest_skip hrest] at hend ⊢
  have hwhole : (Stretch.Kind.expression stops).Whole part := ⟨hcount hend, fun _ => hstop⟩
  rw [hindex, Nat.add_sub_cancel_left, hrest]
  exact .whole hwhole .done

variable {closed : Bool}

theorem parenthesized_pairs : Pairs scan closed [] parenthesized := fun _ =>
  .opening fun _ _ => .takeInside (expressionUntil_pairs _) fun _ _ => .closing fun _ _ => .give

theorem arguments_pairs : Pairs scan closed [] arguments := fun _ =>
  .opening fun _ _ => .acceptClosing (fun _ => .give)
    (.takeInside (.commaSeparated (expressionUntil_pairs _)) fun _ _ => .closing fun _ _ => .give)

theorem declarator_pairs (name : String) (start : Position) :
    Pairs scan false [] (declarator name start) := fun _ =>
  .pass fun _ _ => .take (.whenAccepted (expressionUntil_pairs _)) fun _ _ => .finish

theorem declarators_pairs (name : String) : Pairs scan false [] (declarators name) := fun _ =>
  .state (.take (declarator_pairs name _) fun _ _ =>
    .take (.gather fun _ => .accept (.here fun _ => .pass fun _ _ =>
      .take (declarator_pairs _ _) fun _ _ => .give) .give) fun _ _ => .give)

end

end JavaOutline
