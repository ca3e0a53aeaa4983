/-
**Where parsers can go.**

Whatever a parser meets, and whether it answers or fails, it stands somewhere ahead of where it began:
some tokens were passed, and no level of nesting is left that was counted before.  Most parsers also
pass at least one token whenever they answer.  Both are classes of parsers, so a parser that is put
together from such parsers has the property by inference.

Main definitions:

* `Parser.State.Goes` — a state lies ahead of another one, no less deeply nested;
* `Parser.State.OnWay` — a state on the way through some tokens;
* `Parser.Moves` — a parser that ends ahead of where it began, with a value or an error;
* `Parser.Advances` — a parser that passes a token whenever it answers.

Main results:

* the instances — **phrases move, and those that stand for something advance**.
-/

import JavaOutline.Proofs.Reading

set_option autoImplicit false
set_option synthInstance.maxSize 100000

namespace JavaOutline

open JavaOutline.Parser

namespace Parser

variable {α β : Type}

/-! ### The classes -/

/-- A state lies ahead of another one, and at least as many levels of nesting are counted there. -/
structure State.Goes (s n : State) : Prop where
  depth : s.depth ≤ n.depth
  reaches : s.Reaches n

/-- A parser that ends ahead of where it began, whatever it answers. -/
class Moves (p : Parser α) : Prop where
  goes : ∀ (setting : Setting) (s : State), s.Goes (p setting s).state

/-- A parser that passes a token whenever it answers with a value. -/
class Advances (p : Parser α) : Prop where
  moves : Moves p
  forward : ∀ {setting s a n}, p setting s = .ok a n → s.index < n.index

-- Tried last: a parser is taken apart before it is asked whether it advances.
instance (priority := low) (p : Parser α) [Advances p] : Moves p := Advances.moves

/-! ### States -/

namespace State

theorem Goes.refl (s : State) : s.Goes s := ⟨Nat.le_refl _, Reaches.refl s⟩

theorem Goes.trans {s m n : State} (h : s.Goes m) (h' : m.Goes n) : s.Goes n :=
  ⟨Nat.le_trans h.depth h'.depth, h.reaches.trans h'.reaches⟩

/-- A state that is reached has no fewer tokens behind it. -/
theorem Reaches.index_le {s n : State} (h : s.Reaches n) : s.index ≤ n.index := by
  obtain ⟨passed, -, hindex, -⟩ := h
  omega

theorem Goes.index_le {s n : State} (h : s.Goes n) : s.index ≤ n.index := h.reaches.index_le

theorem goes_skip (k : Nat) (s : State) : s.Goes (s.skip k) :=
  ⟨Nat.le_of_eq (skip_depth k s).symm, reaches_skip k s⟩

theorem goes_advance (s : State) : s.Goes s.advance := goes_skip 1 s

/-- An error that is reported leaves the state where it is. -/
theorem goes_report (s : State) (e : SyntaxError) : s.Goes (s.report e) :=
  ⟨Nat.le_refl _, Reaches.refl s⟩

theorem goes_recovered (s : State) : s.Goes s.recovered := goes_skip _ s

/-- Behind a token that is ahead. -/
theorem advance_cons {s : State} {t : Token} {ts : List Token} (h : s.rest = t :: ts) :
    s.advance = { s with index := s.index + 1, last := some t, rest := ts } := by
  rw [advance, h]

/-- In front of a token the next state is one token further on. -/
theorem index_advance_of_ne_nil {s : State} (h : s.rest ≠ []) : s.advance.index = s.index + 1 := by
  obtain ⟨t, ts, hrest⟩ := List.exists_cons_of_ne_nil h
  rw [advance_cons hrest]

/-- What is seen is a token that is ahead. -/
theorem exists_cons_of_sees {s : State} {text : String} (h : s.sees text = true) :
    ∃ t ts, s.rest = t :: ts ∧ t.is text = true := by
  cases hrest : s.rest with
  | nil => simp [sees, hrest] at h
  | cons t ts =>
      rw [sees, hrest] at h
      exact ⟨t, ts, rfl, h⟩

theorem rest_ne_nil_of_sees {s : State} {text : String} (h : s.sees text = true) : s.rest ≠ [] := by
  obtain ⟨t, ts, hrest, -⟩ := exists_cons_of_sees h
  exact hrest ▸ List.cons_ne_nil t ts

/-- A pair that is seen is a token that is ahead and one behind it. -/
theorem sees_of_seesPair {s : State} {first second : String} (h : s.seesPair first second = true) :
    s.sees first = true := (Bool.and_eq_true_iff.1 h).1

end State

/-! ### States on the way -/

namespace State

variable {tokens : List Token} {s n : State}

/-- A state on the way through some tokens. -/
def OnWay (tokens : List Token) (s : State) : Prop := Reaches { rest := tokens } s

theorem OnWay.goes (h : s.OnWay tokens) (hgoes : s.Goes n) : n.OnWay tokens :=
  Reaches.trans h hgoes.reaches

/-- The tokens ahead are those that were not passed. -/
theorem OnWay.drop_eq (h : s.OnWay tokens) : tokens.drop s.index = s.rest := by
  obtain ⟨passed, hrest, hindex, -⟩ := h
  have hrest : tokens = passed ++ s.rest := hrest
  have hindex : s.index = passed.length := hindex.trans (Nat.zero_add _)
  rw [hrest, hindex, List.drop_left]

/-- The token ahead. -/
theorem OnWay.getElem?_index (h : s.OnWay tokens) : tokens[s.index]? = s.rest.head? := by
  rw [← h.drop_eq, List.head?_drop]

theorem OnWay.index_le (h : s.OnWay tokens) : s.index ≤ tokens.length := by
  obtain ⟨passed, hrest, hindex, -⟩ := h
  have hrest : tokens = passed ++ s.rest := hrest
  have hindex : s.index = passed.length := hindex.trans (Nat.zero_add _)
  rw [hrest, List.length_append]
  omega

/-- In front of the first token none is behind. -/
theorem OnWay.last_eq_none (h : s.OnWay tokens) (hi : s.index = 0) : s.last = none := by
  obtain ⟨passed, -, hindex, hlast⟩ := h
  have hlength : passed.length = 0 := (hindex.trans (Nat.zero_add _)).symm.trans hi
  obtain rfl := List.length_eq_zero_iff.1 hlength
  exact hlast

/-- The token just behind. -/
theorem OnWay.last_eq (h : s.OnWay tokens) {i : Nat} (hi : s.index = i + 1) :
    ∃ t, tokens[i]? = some t ∧ s.last = some t := by
  obtain ⟨passed, hrest, hindex, hlast⟩ := h
  have hrest : tokens = passed ++ s.rest := hrest
  have hlength : passed.length = i + 1 := (hindex.trans (Nat.zero_add _)).symm.trans hi
  have hlast : s.last = passed.getLast? := hlast.trans (Option.or_none)
  have hi : i < passed.length := by omega
  refine ⟨passed[i], ?_, ?_⟩
  · rw [hrest, List.getElem?_append_left hi, List.getElem?_eq_getElem hi]
  · rw [hlast, List.getLast?_eq_getElem?, hlength]
    exact List.getElem?_eq_getElem hi

end State

/-! ### Answers -/

/-- A parser that moves and answers ends ahead of where it began. -/
theorem Moves.of_ok {p : Parser α} [Moves p] {setting : Setting} {s n : State} {a : α}
    (h : p setting s = .ok a n) : s.Goes n := by
  have hgoes := Moves.goes (p := p) setting s
  rwa [h] at hgoes

/-- A parser that moves and fails ends ahead of where it began. -/
theorem Moves.of_fail {p : Parser α} [Moves p] {setting : Setting} {s n : State} {e : SyntaxError}
    (h : p setting s = .fail e n) : s.Goes n := by
  have hgoes := Moves.goes (p := p) setting s
  rwa [h] at hgoes

/-- A parser that passes some tokens, whatever it answers, moves. -/
theorem Moves.of_skip {p : Parser α}
    (h : ∀ setting s, ∃ k, (p setting s).state = s.skip k) : Moves p where
  goes setting s := by
    obtain ⟨k, hk⟩ := h setting s
    rw [hk]
    exact State.goes_skip k s

/-- A parser that stays where it is moves. -/
theorem Moves.of_still {p : Parser α} (h : ∀ setting s, (p setting s).state = s) : Moves p :=
  .of_skip fun setting s => ⟨0, h setting s⟩

/-! ### One parser after another -/

instance (a : α) : Moves (Pure.pure a : Parser α) := .of_still fun _ _ => rfl

instance moves_bind (p : Parser α) (f : α → Parser β) [Moves p] [∀ a, Moves (f a)] :
    Moves (p >>= f) where
  goes setting s := by
    cases h : p setting s with
    | ok a m =>
        rw [bind_of_ok h]
        exact (Moves.of_ok h).trans (Moves.goes setting m)
    | fail e m =>
        rw [bind_of_fail h]
        exact Moves.of_fail h

-- What follows may ask whether there is a value, so both answers are tried.
instance (priority := low) (p : Parser (Option α)) (f : Option α → Parser β) [Moves p]
    [Moves (f none)] [∀ a, Moves (f (some a))] : Moves (p >>= f) := by
  have : ∀ value, Moves (f value) := by
    intro value
    cases value <;> infer_instance
  infer_instance

instance (c : Prop) [Decidable c] (p q : Parser α) [Moves p] [Moves q] :
    Moves (if c then p else q) := by
  split <;> infer_instance

instance advances_later (p : Parser α) (f : α → Parser β) [Moves p] [∀ a, Advances (f a)] :
    Advances (p >>= f) where
  moves := inferInstance
  forward hok := by
    obtain ⟨a, m, hp, hf⟩ := bind_eq_ok.1 hok
    exact Nat.lt_of_le_of_lt (Moves.of_ok hp).index_le (Advances.forward hf)

instance advances_first (p : Parser α) (f : α → Parser β) [Advances p] [∀ a, Moves (f a)] :
    Advances (p >>= f) where
  moves := inferInstance
  forward hok := by
    obtain ⟨a, m, hp, hf⟩ := bind_eq_ok.1 hok
    exact Nat.lt_of_lt_of_le (Advances.forward hp) (Moves.of_ok hf).index_le

instance (c : Prop) [Decidable c] (p q : Parser α) [Advances p] [Advances q] :
    Advances (if c then p else q) := by
  split <;> infer_instance

/-! ### Single tokens -/

instance : Moves state := .of_still fun _ _ => rfl

instance (f : State → α) : Moves (ask f) := .of_still fun _ _ => rfl

instance (text : String) : Moves (sees text) := .of_still fun _ _ => rfl

instance (start : Position) : Moves (spanFrom start) := .of_still fun _ _ => rfl

instance : Moves here := .of_still fun _ _ => rfl

instance : Moves isDiet := .of_still fun _ _ => rfl

-- An error is no answer, so a parser that only fails advances whenever it answers.
instance (expected : String) : Advances (unexpected expected : Parser α) where
  moves := .of_still fun _ _ => rfl
  forward hok := by cases hok

instance : Moves advance := .of_skip fun _ _ => ⟨1, rfl⟩

instance (n : Nat) : Moves (skip n) := .of_skip fun _ _ => ⟨n, rfl⟩

instance (text : String) : Moves (accept text) := .of_skip fun setting s => by
  unfold accept
  split
  · exact ⟨1, rfl⟩
  · exact ⟨0, rfl⟩

/-- A token that is accepted is passed. -/
theorem accept_true {text : String} {setting : Setting} {s n : State}
    (h : accept text setting s = .ok true n) : s.sees text = true ∧ n = s.advance := by
  unfold accept at h
  split at h
  · rename_i hsees
    cases h
    exact ⟨hsees, rfl⟩
  · cases h

/-- A token that is not accepted stays ahead. -/
theorem accept_false {text : String} {setting : Setting} {s n : State}
    (h : accept text setting s = .ok false n) : ¬ s.sees text = true ∧ n = s := by
  unfold accept at h
  split at h
  next => cases h
  next hsees =>
    cases h
    exact ⟨hsees, rfl⟩

theorem index_lt_of_accept {text : String} {setting : Setting} {s n : State}
    (h : accept text setting s = .ok true n) : s.index < n.index := by
  obtain ⟨hsees, rfl⟩ := accept_true h
  rw [State.index_advance_of_ne_nil (State.rest_ne_nil_of_sees hsees)]
  exact Nat.lt_succ_self _

instance (text : String) : Advances (expect text) where
  moves := .of_skip fun setting s => by
    unfold expect
    split
    · split
      · exact ⟨1, rfl⟩
      · exact ⟨0, rfl⟩
    · exact ⟨0, rfl⟩
  forward {setting s a n} hok := by
    obtain rfl := expect_eq_ok hok
    have hrest : s.rest ≠ [] := by
      intro hnil
      simp [expect, hnil] at hok
    rw [State.index_advance_of_ne_nil hrest]
    exact Nat.lt_succ_self _

instance : Advances identifier where
  moves := .of_skip fun setting s => by
    unfold identifier
    split
    · split
      · exact ⟨1, rfl⟩
      · exact ⟨0, rfl⟩
    · exact ⟨0, rfl⟩
  forward {setting s a n} hok := by
    unfold identifier at hok
    split at hok
    · rename_i t ts hrest
      split at hok
      · cases hok
        rw [State.index_advance_of_ne_nil (by simp [hrest])]
        exact Nat.lt_succ_self _
      · cases hok
    · cases hok

/-- A group has a closer, and ends within the tokens. -/
theorem groupLength?_pos {opener closer : String} {depth n : Nat} {tokens : List Token}
    (h : groupLength? opener closer depth tokens = some n) : 0 < n ∧ n ≤ tokens.length := by
  have hlater {t : Token} {ts : List Token} {found : Option Nat} {n : Nat}
      (ih : ∀ {m}, found = some m → 0 < m ∧ m ≤ ts.length) (hmap : found.map (· + 1) = some n) :
      0 < n ∧ n ≤ (t :: ts).length := by
    obtain ⟨m, hm, rfl⟩ := Option.map_eq_some_iff.1 hmap
    exact ⟨Nat.succ_pos m, Nat.succ_le_succ (ih hm).2⟩
  fun_induction groupLength? opener closer depth tokens generalizing n with
  | case1 => cases h
  | case2 depth t ts hopens ih => exact hlater ih h
  | case3 t ts hopens hcloses =>
      cases h
      exact ⟨Nat.one_pos, Nat.succ_le_succ (Nat.zero_le _)⟩
  | case4 t ts hopens hcloses depth ih => exact hlater ih h
  | case5 depth t ts hopens hcloses ih => exact hlater ih h

/-- Passing tokens that are ahead counts them. -/
theorem State.index_skip {n : Nat} {s : State} (h : n ≤ s.rest.length) :
    (s.skip n).index = s.index + n := by
  induction n generalizing s with
  | zero => rfl
  | succ n ih =>
      cases hrest : s.rest with
      | nil =>
          rw [hrest] at h
          cases h
      | cons t ts =>
          have hadvance := State.advance_cons hrest
          have hlength : n ≤ s.advance.rest.length := by
            rw [hadvance]
            rw [hrest] at h
            exact Nat.le_of_succ_le_succ h
          rw [State.skip, ih hlength, hadvance]
          exact Nat.add_right_comm _ _ _

/-- A group that is passed over has an opener and a closer. -/
theorem groupLength_of_bracketed {opener closer : String} {setting : Setting} {s n : State} {span : Span}
    (h : bracketed opener closer setting s = .ok span n) :
    ∃ k, groupLength? opener closer 0 s.advance.rest = some k ∧ n = s.advance.skip k ∧
      span = ⟨setting.here s, (n.last.map (·.span.stop)).getD (setting.here s)⟩ := by
  unfold bracketed at h
  dsimp only at h
  split at h
  · rename_i k hk
    cases h
    exact ⟨k, hk, rfl, rfl⟩
  · cases h

instance (opener closer : String) : Advances (bracketed opener closer) where
  moves := .of_skip fun setting s => by
    unfold bracketed
    dsimp only
    split
    · exact ⟨_ + 1, rfl⟩
    · exact ⟨_ + 1, rfl⟩
  forward {setting s span n} hok := by
    obtain ⟨k, hk, rfl, -⟩ := groupLength_of_bracketed hok
    obtain ⟨hpos, hle⟩ := groupLength?_pos hk
    have hindex := State.index_skip hle
    have hadvance := (State.goes_advance s).index_le
    omega

/-! ### Repetition -/

instance (later : Parser (List α)) [Moves later] (value : Turn α) :
    Moves (behindTurn later value) := by
  cases value <;> unfold behindTurn <;> infer_instance

instance collect_moves (turn : Parser (Turn α)) [Moves turn] (fuel : Nat) :
    Moves (collect turn fuel) := by
  induction fuel with
  | zero => exact inferInstanceAs (Moves (Pure.pure [] : Parser (List α)))
  | succ fuel ih => exact inferInstanceAs (Moves (turn >>= behindTurn (collect turn fuel)))

instance (turn : Parser (Turn α)) [Moves turn] : Moves (gather turn) where
  goes setting s := by
    rw [gather_eq_collect]
    exact Moves.goes setting s

instance repeatLoop_moves (turn : Parser Bool) [Moves turn] (fuel : Nat) :
    Moves (repeatLoop turn fuel) := by
  induction fuel with
  | zero => exact inferInstanceAs (Moves (Pure.pure () : Parser Unit))
  | succ fuel ih =>
      exact inferInstanceAs
        (Moves (turn >>= fun more => if more then repeatLoop turn fuel else Pure.pure ()))

instance (turn : Parser Bool) [Moves turn] : Moves (repeatWhile turn) where
  goes setting s := Moves.goes (p := repeatLoop turn (setting.total - s.index + 1)) setting s

instance (text : String) (p : Parser α) [Moves p] : Moves (whenAccepted text p) := by
  unfold whenAccepted
  infer_instance

instance (item : Parser α) [Advances item] : Advances (commaSeparated item) := by
  unfold commaSeparated
  infer_instance

/-! ### Nesting and errors -/

instance : Advances (tooDeep : Parser α) where
  moves := .of_still fun _ _ => rfl
  forward hok := by cases hok

instance (p : Parser α) [Moves p] : Moves (guarded p) where
  goes setting s := by
    have hdeeper : s.Goes { s with depth := s.depth + 1 } :=
      ⟨Nat.le_succ _, State.Reaches.refl s⟩
    -- The level that was opened is left again, so what was counted before still is.
    have hback {m : State} (hm : State.Goes { s with depth := s.depth + 1 } m) :
        s.Goes { m with depth := m.depth - 1 } := by
      refine ⟨?_, hm.reaches⟩
      have hdepth : s.depth + 1 ≤ m.depth := hm.depth
      show s.depth ≤ m.depth - 1
      omega
    unfold guarded
    dsimp only
    split
    · exact hdeeper
    · cases h : p setting { s with depth := s.depth + 1 } with
      | ok a m => exact hback (Moves.of_ok h)
      | fail e m => exact hback (Moves.of_fail h)

instance (p : Parser α) [Advances p] : Advances (guarded p) where
  moves := inferInstance
  forward hok := by
    obtain ⟨-, m, hp, rfl⟩ := guarded_eq_ok.1 hok
    have hforward := Advances.forward hp
    exact hforward

instance (expected : String) : Moves (reportUnexpected expected) where
  goes _ s := State.goes_report s _

instance (p : Parser Unit) [Moves p] : Moves (orReport p) where
  goes setting s := by
    unfold orReport
    cases h : p setting s with
    | ok a n => exact Moves.of_ok h
    | fail e n => exact (Moves.of_fail h).trans (n.goes_report e)

instance (p : Parser α) [Moves p] : Moves (orRecover p) where
  goes setting s := by
    unfold orRecover
    cases h : p setting s with
    | ok a n => exact Moves.of_ok h
    | fail e n =>
        exact ((Moves.of_fail h).trans (n.goes_report e)).trans (State.goes_recovered _)

instance (p : Parser α) [Moves p] : Moves (orSkip p) where
  goes setting s := by
    unfold orSkip
    cases h : p setting s with
    | ok a n => exact Moves.of_ok h
    | fail e n =>
        have hthere := ((Moves.of_fail h).trans (n.goes_report e)).trans (State.goes_recovered _)
        dsimp only
        split
        · exact hthere.trans (State.goes_advance _)
        · exact hthere

instance (p : Parser α) (test : State → Bool) : Moves (lookingPast p test) :=
  .of_still fun setting s => by
    unfold lookingPast
    split <;> rfl

end Parser

/-! ### Phrases -/

instance : Advances qualifiedName := by
  unfold qualifiedName
  infer_instance

instance : Moves annotations := by
  unfold annotations
  infer_instance

instance : Moves modifiers := by
  unfold modifiers
  have : ∀ s : State, Moves (match s.modifier?, s.sealedLength? with
      | some word, _ => do
          advance
          return Turn.take word
      | none, some n => do
          Parser.skip n
          return Turn.skip
      | none, none =>
          if s.seesAnnotation then do
            annotations
            return Turn.skip
          else return Turn.stop : Parser (Turn String)) := by
    intro s
    split <;> infer_instance
  infer_instance

instance : Moves dimensions := by
  unfold dimensions
  infer_instance

instance : Moves typeSuffixes := by
  unfold typeSuffixes
  infer_instance

instance : Advances typeReference where
  moves := by
    unfold typeReference
    infer_instance
  forward {setting s a n} hok := by
    obtain ⟨_, m, hannotations, hok⟩ := bind_eq_ok.1 hok
    obtain ⟨start, _, hstate, hok⟩ := bind_eq_ok.1 hok
    cases hstate
    split at hok
    · rename_i hstart
      have hrest : m.rest ≠ [] := by
        intro hnil
        simp [State.sees, hnil] at hstart
      obtain ⟨_, m', hadvance, hok⟩ := bind_eq_ok.1 hok
      cases hadvance
      have hbehind := (Moves.of_ok hok).index_le
      have hindex := State.index_advance_of_ne_nil hrest
      have hfront := (Moves.of_ok hannotations).index_le
      omega
    · cases hok

instance : Advances typeList := by
  unfold typeList
  infer_instance

instance : Moves typeParameters := by
  unfold typeParameters
  infer_instance

/-- An expression takes tokens that are ahead. -/
theorem expressionLength_le (stops : List String) (depth : Nat) (tokens : List Token) :
    expressionLength stops depth tokens ≤ tokens.length := by
  fun_induction expressionLength stops depth tokens with
  | case1 => exact Nat.le_refl 0
  | case2 => exact Nat.zero_le _
  | case3 depth t ts _ _ ih => exact Nat.succ_le_succ ih
  | case4 => exact Nat.zero_le _
  | case5 t ts _ _ depth _ ih => exact Nat.succ_le_succ ih
  | case6 depth t ts _ _ _ ih => exact Nat.succ_le_succ ih

/-- An expression that is read has tokens, and these are passed. -/
theorem expressionUntil_eq_ok {stops : List String} {setting : Setting} {s n : State}
    {e : Expression} (h : expressionUntil stops setting s = .ok e n) :
    ∃ first later, s.rest.take (expressionLength stops 0 s.rest) = first :: later ∧
      n = s.skip (expressionLength stops 0 s.rest) ∧ e = Expression.ofTokens first later := by
  obtain ⟨_, _, hstate, h⟩ := bind_eq_ok.1 h
  cases hstate
  cases htake : s.rest.take (expressionLength stops 0 s.rest) with
  | nil =>
      simp only [htake] at h
      cases h
  | cons first later =>
      simp only [htake] at h
      obtain ⟨_, _, hskip, h⟩ := bind_eq_ok.1 h
      cases hskip
      obtain ⟨rfl, rfl⟩ := pure_eq_ok.1 h
      exact ⟨first, later, rfl, rfl, rfl⟩

instance (stops : List String) : Advances (expressionUntil stops) where
  moves := by
    unfold expressionUntil
    have : ∀ s : State, Moves (match s.rest.take (expressionLength stops 0 s.rest) with
        | [] => unexpected "expression"
        | first :: rest => do
            Parser.skip (expressionLength stops 0 s.rest)
            return Expression.ofTokens first rest : Parser Expression) := by
      intro s
      split <;> infer_instance
    infer_instance
  forward {setting s e n} hok := by
    obtain ⟨first, later, htake, rfl, -⟩ := expressionUntil_eq_ok hok
    have hpos := congrArg List.length htake
    rw [List.length_take, List.length_cons] at hpos
    rw [State.index_skip (expressionLength_le stops 0 s.rest)]
    omega

instance : Advances parenthesized := by
  unfold parenthesized
  infer_instance

instance : Advances arguments := by
  unfold arguments
  infer_instance

instance (name : String) (start : Position) : Moves (declarator name start) := by
  unfold declarator
  infer_instance

instance (firstName : String) : Moves (declarators firstName) := by
  unfold declarators
  infer_instance

instance : Moves looksLikeLocalDeclaration := by
  unfold looksLikeLocalDeclaration
  infer_instance

end JavaOutline
