/-
**The heads of the parts of a loop header.**

The header of a counting loop has three parts.  In front of the expression of a part the parser passes
a head: modifiers, and a type if a type and the name of a variable seem to be ahead.  Looking for that
type it goes on to the next closing angle bracket, wherever that is, so the head of a part may end far
behind it.  A part is read as its own end exactly if its head stays inside, and the head of a part that
is made of names, literals and operators stays inside unless there is an opening angle bracket.

Main definitions:

* `Clause` — a part of a header, with nested brackets and no semicolon outside of them;
* `clauseHead`, `Clause.KeepsHead` — what is passed in front of an expression, and that it ends inside;
* `Clause.EndsWith` — an expression is the end of a part;
* `Clause.Unangled` — a part without keywords, annotations and opening angle brackets.

Main results:

* `forClause_of_keepsHead`, `keepsHead_of_forClause` — **when a part is read as its own end**;
* `Clause.Unangled.keepsHead` — a part without opening angle brackets keeps its head.
-/

import JavaOutline.Proofs.CheckedExpressions
import JavaOutline.Proofs.MirroredTurns
import JavaOutline.Proofs.SoundSpans
import JavaOutline.Proofs.WholeCaptures

set_option autoImplicit false

namespace JavaOutline

open JavaOutline.Parser

/-! ### Places among ordered tokens -/

namespace Token.Ordered

variable {tokens : List Token} {a b : Token} {i j : Nat}

/-- Ordered tokens are known by where they begin. -/
theorem eq_of_start (h : Token.Ordered tokens) (ha : tokens[i]? = some a)
    (hb : tokens[j]? = some b) (heq : a.span.start = b.span.start) : i = j := by
  have hown := h.start_lt_stop ha
  have hown' := h.start_lt_stop hb
  rcases Nat.lt_trichotomy i j with hij | hij | hij
  · have hbetween := h.stop_le_start_of_lt hij ha hb
    rw [heq] at hown
    omega
  · exact hij
  · have hbetween := h.stop_le_start_of_lt hij hb ha
    rw [heq] at hbetween
    omega

/-- Ordered tokens are known by where they end. -/
theorem eq_of_stop (h : Token.Ordered tokens) (ha : tokens[i]? = some a)
    (hb : tokens[j]? = some b) (heq : a.span.stop = b.span.stop) : i = j := by
  have hown := h.start_lt_stop ha
  have hown' := h.start_lt_stop hb
  rcases Nat.lt_trichotomy i j with hij | hij | hij
  · have hbetween := h.stop_le_start_of_lt hij ha hb
    rw [heq] at hbetween
    omega
  · exact hij
  · have hbetween := h.stop_le_start_of_lt hij hb ha
    rw [heq] at hown
    omega

end Token.Ordered

/-- The first and the last token of an expression among others. -/
theorem getElem?_ends (front back : List Token) (first : Token) (others : List Token) :
    (front ++ (first :: others ++ back))[front.length]? = some first ∧
      (front ++ (first :: others ++ back))[front.length + others.length]? =
        some (others.getLastD first) := by
  refine ⟨by simp, ?_⟩
  rw [List.getElem?_append_right (Nat.le_add_right _ _), Nat.add_sub_cancel_left,
    List.getElem?_append_left (by simp)]
  exact Checked.getElem?_last first others

/-- Among ordered tokens an expression is known by its span. -/
theorem Expression.place_of_ofTokens {front front' back back' others others' : List Token}
    {first first' : Token} {tokens : List Token} (hordered : Token.Ordered tokens)
    (htokens : tokens = front ++ (first :: others ++ back))
    (htokens' : tokens = front' ++ (first' :: others' ++ back'))
    (heq : Expression.ofTokens first others = .ofTokens first' others') :
    front.length = front'.length ∧ others.length = others'.length := by
  obtain ⟨hfirst, hlast⟩ := htokens ▸ getElem?_ends front back first others
  obtain ⟨hfirst', hlast'⟩ := htokens' ▸ getElem?_ends front' back' first' others'
  have hfront := hordered.eq_of_start hfirst hfirst' (congrArg (·.span.start) heq)
  have hback := hordered.eq_of_stop hlast hlast' (congrArg (·.span.stop) heq)
  exact ⟨hfront, by omega⟩

/-! ### Parts of a header -/

/-- A part of the header of a loop: its brackets nest and no semicolon stands outside of them. -/
structure Clause where
  first : Token
  others : List Token
  brackets : WellBracketed (first :: others)
  semicolons : ∀ t, Outside 0 t (first :: others) → t.is ";" = false

namespace Clause

variable (c : Clause)

/-- The tokens of a part. -/
def tokens : List Token := c.first :: c.others

/-- The expression is the end of the part. -/
def EndsWith (e : Expression) : Prop :=
  ∃ front first others, c.tokens = front ++ first :: others ∧ e = .ofTokens first others

end Clause

/-- Passes what stands in front of an expression: modifiers, and a type if one seems to be ahead. -/
def clauseHead : Parser Unit := do
  let words ← modifiers
  let declares ← looksLikeLocalDeclaration
  if !words.isEmpty || declares then
    let _ ← typeReference

/-- The head of the part ahead ends inside of it, in front of a token that stands outside of its
brackets. -/
def Clause.KeepsHead (c : Clause) (setting : Setting) (s : State) : Prop :=
  ∃ front t back, c.tokens = front ++ t :: back ∧ bracketDepth 0 front = 0 ∧
    clauseHead setting s = .ok () (s.skip front.length)

section

variable {setting : Setting} {s n : State} {terminator : String}

/-- What is done on a condition, and then something else. -/
theorem when_eq_ok {α β : Type} {p : Parser α} {q : Parser β} {b : β} (c : Bool) :
    (if c then (do let _ ← p; q) else q : Parser β) setting s = .ok b n ↔
      ∃ m, (if c then (do let _ ← p) else Pure.pure () : Parser Unit) setting s = .ok () m ∧
        q setting m = .ok b n := by
  cases c with
  | false => simp [pure_eq_ok]
  | true =>
      simp only [if_true, bind_eq_ok]
      constructor
      · rintro ⟨a, m, ha, hq⟩
        exact ⟨m, ⟨a, m, ha, rfl⟩, hq⟩
      · rintro ⟨m, ⟨a, k, ha, hk⟩, hq⟩
        obtain ⟨-, rfl⟩ := pure_eq_ok.1 hk
        exact ⟨a, k, ha, hq⟩

/-- A part that is not empty has a head and an expression. -/
theorem forClause_eq_ok {found : List Expression} (hsees : s.sees terminator = false) :
    forClause terminator setting s = .ok found n ↔
      ∃ m e, clauseHead setting s = .ok () m ∧ expressionUntil [terminator] setting m = .ok e n ∧
        found = [e] := by
  have hsees : sees terminator setting s = .ok false s := congrArg (Answer.ok · s) hsees
  unfold forClause clauseHead
  rw [bind_of_ok hsees, if_neg Bool.false_ne_true]
  constructor
  · intro hok
    obtain ⟨words, k, hwords, hok⟩ := bind_eq_ok.1 hok
    obtain ⟨declares, k', hdeclares, hok⟩ := bind_eq_ok.1 hok
    obtain ⟨m, hhead, hok⟩ := (when_eq_ok _).1 hok
    obtain ⟨e, m', he, hok⟩ := bind_eq_ok.1 hok
    obtain ⟨rfl, rfl⟩ := pure_eq_ok.1 hok
    exact ⟨m, e, ((bind_of_ok hwords).trans (bind_of_ok hdeclares)).trans hhead, he, rfl⟩
  · rintro ⟨m, e, hhead, he, rfl⟩
    obtain ⟨words, k, hwords, hhead⟩ := bind_eq_ok.1 hhead
    obtain ⟨declares, k', hdeclares, hhead⟩ := bind_eq_ok.1 hhead
    rw [bind_of_ok hwords, bind_of_ok hdeclares]
    exact (when_eq_ok _).2 ⟨m, hhead, (bind_of_ok he).trans rfl⟩

end

/-! ### Heads -/

instance : Quiet modifiers := by
  unfold modifiers
  have hturn : ∀ s : State, Quiet (match s.modifier?, s.sealedLength? with
      | some word, _ => do
          advance
          return Turn.take word
      | none, some n => do
          Parser.skip n
          return Turn.skip
      | none, none =>
          if s.seesAnnotation then do
            annotations
            return Turn.skip
          else return Turn.stop : Parser (Turn String)) := by
    intro s
    split <;> infer_instance
  infer_instance

instance : Quiet looksLikeLocalDeclaration := by
  refine .of_skip fun setting s => ⟨0, ?_⟩
  unfold looksLikeLocalDeclaration lookingPast
  cases typeReference setting s <;> rfl

instance : Quiet clauseHead := by
  unfold clauseHead
  infer_instance

instance : Moves clauseHead := by
  unfold clauseHead
  infer_instance

namespace Parser.State

theorem skip_skip (i j : Nat) (s : State) : (s.skip i).skip j = s.skip (i + j) := by
  induction i generalizing s with
  | zero => rw [Nat.zero_add]; rfl
  | succ i ih => rw [Nat.succ_add]; exact ih s.advance

/-- The state behind some tokens that are ahead. -/
theorem skip_eq {s : State} {passed back : List Token} (hrest : s.rest = passed ++ back) :
    s.skip passed.length =
      { s with index := s.index + passed.length, last := passed.getLast?.or s.last, rest := back } := by
  induction passed generalizing s with
  | nil => cases s; cases hrest; rfl
  | cons t passed ih =>
      have hadvance := advance_cons hrest
      have hstep : s.skip (t :: passed).length = s.advance.skip passed.length := rfl
      rw [hstep, ih (rest_advance hrest), hadvance]
      simp only [List.length_cons, State.mk.injEq, and_true]
      refine ⟨by omega, ?_⟩
      cases hlast : passed.getLast? <;> simp [List.getLast?_cons, hlast]

end Parser.State

/-- What is passed quietly is a number of tokens. -/
theorem Parser.Quiet.eq_skip {α : Type} {p : Parser α} [Quiet p] [Moves p] {setting : Setting}
    {s n : State} {a : α} (hok : p setting s = .ok a n) :
    ∃ passed, s.rest = passed ++ n.rest ∧ n = s.skip passed.length := by
  obtain ⟨passed, hrest, hindex, hlast⟩ := (Moves.of_ok hok).reaches
  have hdepth : n.depth = s.depth := by simpa [hok, Answer.state] using Quiet.depth (p := p) setting s
  have herrors : n.errors = s.errors := by simpa [hok, Answer.state] using Quiet.errors (p := p) setting s
  refine ⟨passed, hrest, ?_⟩
  rw [State.skip_eq hrest, ← hindex, ← hlast, ← hdepth, ← herrors]

section

variable {setting : Setting} {s n : State} {c : Clause} {terminator : String} {stop : Token}
  {after : List Token}

theorem Clause.nests (c : Clause) : Nests [] c.tokens := wellBracketed_iff.1 c.brackets

/-- A part does not begin with what ends it. -/
theorem Clause.sees_terminator (hends : ∀ t, Outside 0 t c.tokens → t.is terminator = false)
    (hrest : s.rest = c.tokens ++ stop :: after) : s.sees terminator = false := by
  rw [State.sees_cons (hrest.trans rfl)]
  exact hends c.first (outside_cons.2 (.inl ⟨rfl, rfl⟩))

/-- A part is read as one expression. -/
theorem forClause_single {found : List Expression}
    (hends : ∀ t, Outside 0 t c.tokens → t.is terminator = false)
    (hrest : s.rest = c.tokens ++ stop :: after)
    (hok : forClause terminator setting s = .ok found n) : ∃ e, found = [e] := by
  obtain ⟨-, e, -, -, hfound⟩ := (forClause_eq_ok (Clause.sees_terminator hends hrest)).1 hok
  exact ⟨e, hfound⟩

/-- **A part whose head stays inside is read as its own end.** -/
theorem forClause_of_keepsHead (hhead : c.KeepsHead setting s)
    (hends : ∀ t, Outside 0 t c.tokens → t.is terminator = false)
    (hrest : s.rest = c.tokens ++ stop :: after) (hstop : stop.is terminator = true) :
    ∃ e, forClause terminator setting s = .ok [e] (s.skip c.tokens.length) ∧ c.EndsWith e := by
  obtain ⟨front, t, back, hsplit, hdepth, hhead⟩ := hhead
  have hback : WellBracketed (t :: back) := by
    obtain ⟨later, hlater, hlength⟩ := (hsplit ▸ c.nests).split
    rw [List.length_nil, hdepth] at hlength
    obtain rfl := List.eq_nil_of_length_eq_zero hlength
    exact wellBracketed_iff.2 hlater
  have hstops : ∀ u, Outside 0 u (t :: back) → u.isAny [terminator] = false := by
    intro u hu
    have hout : Outside 0 u c.tokens := hsplit ▸ hu.append hdepth
    simp [Token.isAny, hends u hout]
  have hfront : s.rest = front ++ (t :: back ++ stop :: after) := by
    rw [hrest, hsplit, List.append_assoc]
  have hafter : expressionLength [terminator] 0 (stop :: after) = 0 := by
    simp [expressionLength, Token.isAny, hstop]
  have hcapture : expressionUntil [terminator] setting (s.skip front.length) = _ :=
    expressionUntil_whole hback hstops (State.rest_skip hfront) hafter
  refine ⟨.ofTokens t back, ?_, front, t, back, hsplit, rfl⟩
  refine (forClause_eq_ok (Clause.sees_terminator hends hrest)).2 ⟨_, _, hhead, ?_, rfl⟩
  rw [hcapture, State.skip_skip, hsplit, List.length_append]

/-- **A part that is read as its own end keeps its head inside.** -/
theorem keepsHead_of_forClause {e : Expression} (hordered : Token.Ordered s.rest)
    (hends : ∀ t, Outside 0 t c.tokens → t.is terminator = false)
    (hrest : s.rest = c.tokens ++ stop :: after)
    (hok : forClause terminator setting s = .ok [e] n) (he : c.EndsWith e) :
    c.KeepsHead setting s ∧ n = s.skip c.tokens.length := by
  obtain ⟨m, e', hhead, hcapture, heq⟩ := (forClause_eq_ok (Clause.sees_terminator hends hrest)).1 hok
  cases heq
  obtain ⟨passed, hpassed, rfl⟩ := Quiet.eq_skip hhead
  obtain ⟨first', others', htake, rfl, hexpression⟩ := expressionUntil_eq_ok hcapture
  obtain ⟨front, first, others, hsplit, rfl⟩ := he
  generalize hm : s.skip passed.length = m at *
  -- The expression takes the same tokens, so it begins and ends where the end of the part does.
  have hle := expressionLength_le [terminator] 0 m.rest
  have hcut : m.rest = first' :: others' ++ m.rest.drop (expressionLength [terminator] 0 m.rest) := by
    rw [← htake, List.take_append_drop]
  have hlength : expressionLength [terminator] 0 m.rest = (first' :: others').length := by
    rw [← htake, List.length_take, Nat.min_eq_left hle]
  have hfront : s.rest = front ++ (first :: others ++ stop :: after) := by
    rw [hrest, hsplit, List.append_assoc]
  obtain ⟨hstart, hstop⟩ := Expression.place_of_ofTokens hordered hfront
    (hpassed.trans (congrArg (passed ++ ·) hcut)) hexpression
  obtain ⟨rfl, hrest'⟩ := List.append_inj (hpassed.symm.trans hfront) hstart.symm
  rw [List.length_cons, ← hstop, ← List.length_cons (a := first)] at hlength
  have hdepth : bracketDepth 0 passed = 0 := by
    obtain ⟨later, hlater, hopen⟩ := (hsplit ▸ c.nests).split
    refine Classical.byContradiction fun hne => ?_
    have hshort : expressionLength [terminator] 0 m.rest < (first :: others).length := by
      rw [hrest']
      exact expressionLength_lt (stop :: after) hlater (by rw [hopen]; exact Nat.pos_of_ne_zero hne)
    exact Nat.lt_irrefl _ (hlength ▸ hshort)
  subst hm
  refine ⟨⟨passed, first, others, hsplit, hdepth, hhead⟩, ?_⟩
  rw [hlength, State.skip_skip, hsplit, List.length_append]

end

/-! ### Parts without angle brackets -/

/-- A part that is made of names, literals and operators, with no annotation and no opening angle
bracket, and that does not begin like the modifier `non-sealed`. -/
structure Clause.Unangled (c : Clause) : Prop where
  words : ∀ t ∈ c.tokens, t.isAny ("@" :: "<" :: keywords) = false
  start : c.tokens.head?.any (·.isName "non") = false

/-- Tokens that can be such a part. -/
theorem Clause.exists_unangled {tokens : List Token}
    (h : tokens ≠ [] ∧ WellBracketed tokens ∧ (∀ t ∈ outsideTokens 0 tokens, t.is ";" = false) ∧
      (∀ t ∈ tokens, t.isAny ("@" :: "<" :: keywords) = false) ∧
      tokens.head?.any (·.isName "non") = false) :
    ∃ c : Clause, c.tokens = tokens ∧ c.Unangled := by
  obtain ⟨hne, hbrackets, hsemicolons, hwords, hstart⟩ := h
  cases tokens with
  | nil => exact absurd rfl hne
  | cons first others =>
      exact ⟨⟨first, others, hbrackets, fun t ht => hsemicolons t (mem_outsideTokens.2 ht)⟩, rfl,
        hwords, hstart⟩

/-- The state lies on the way through a part that is ahead of another state, outside of its brackets. -/
def Clause.Inside (c : Clause) (s m : State) : Prop :=
  ∃ front back, c.tokens = front ++ back ∧ m = s.skip front.length ∧ bracketDepth 0 front = 0

namespace Token

variable {t : Token}

/-- A keyword or operator is no name. -/
theorem isIdentifier_of_is {text : String} (h : t.is text = true) : t.isIdentifier = false := by
  cases hk : t.kind <;> simp [is, isIdentifier, hk] at h ⊢

/-- A name is no bracket. -/
theorem not_bracket_of_isIdentifier (h : t.isIdentifier = true) :
    ¬ t.opens = true ∧ ¬ t.closes = true := by
  have hnot (texts : List String) : ¬ t.isAny texts = true := by
    intro hany
    obtain ⟨text, -, his⟩ := List.any_eq_true.1 hany
    rw [isIdentifier_of_is his] at h
    cases h
  exact ⟨hnot _, hnot _⟩

/-- A keyword or an operator that is no bracket. -/
theorem not_bracket_of_is {text : String} (h : t.is text = true)
    (htext : text ∉ ["(", "[", "\x7b"] ∧ text ∉ [")", "]", "\x7d"]) :
    ¬ t.opens = true ∧ ¬ t.closes = true := by
  constructor
  · intro hopens
    rw [is_of_isAny hopens htext.1] at h
    cases h
  · intro hcloses
    rw [is_of_isAny hcloses htext.2] at h
    cases h

end Token

/-- A repetition ends where its turns do. -/
theorem repeatWhile_keeps {turn : Parser Bool} {setting : Setting} (holds : State → Prop)
    (hturn : ∀ {s more n}, holds s → turn setting s = .ok more n → holds n) {s n : State}
    (hs : holds s) (hok : repeatWhile turn setting s = .ok () n) : holds n := by
  have hloop (fuel : Nat) : ∀ {s n : State}, holds s →
      repeatLoop turn fuel setting s = .ok () n → holds n := by
    induction fuel with
    | zero =>
        intro s n hs hok
        cases hok
        exact hs
    | succ fuel ih =>
        intro s n hs hok
        obtain ⟨more, m, hmore, hok⟩ := bind_eq_ok.1 hok
        have hm := hturn hs hmore
        cases more with
        | true => exact ih hm hok
        | false =>
            cases hok
            exact hm
  exact hloop _ hs hok

theorem gather_keeps {α : Type} {turn : Parser (Turn α)} {setting : Setting} (holds : State → Prop)
    (hturn : ∀ {s value n}, holds s → turn setting s = .ok value n → holds n) {s n : State}
    {found : List α} (hs : holds s) (h : gather turn setting s = .ok found n) : holds n := by
  rw [gather_eq_collect] at h
  generalize setting.total - s.index + 1 = fuel at h
  induction fuel generalizing s found with
  | zero =>
      obtain ⟨-, rfl⟩ := pure_eq_ok.1 h
      exact hs
  | succ fuel ih =>
      obtain ⟨value, m, hvalue, h⟩ := bind_eq_ok.1 h
      have hm := hturn hs hvalue
      cases value with
      | stop =>
          obtain ⟨-, rfl⟩ := pure_eq_ok.1 h
          exact hm
      | skip => exact ih hm h
      | take a =>
          obtain ⟨later, m', hlater, h⟩ := bind_eq_ok.1 h
          obtain ⟨-, rfl⟩ := pure_eq_ok.1 h
          exact ih hm hlater
      | final a =>
          obtain ⟨-, rfl⟩ := pure_eq_ok.1 h
          exact hm

section

variable {setting : Setting} {s m n : State} {c : Clause} {stop : Token} {after : List Token}

/-- What is ahead of a state inside of a part: the other tokens of the part, and what follows. -/
theorem Clause.Inside.ahead (hm : c.Inside s m) (hrest : s.rest = c.tokens ++ stop :: after) :
    ∃ back, (∀ t ∈ back, t ∈ c.tokens) ∧ m.rest = back ++ stop :: after ∧
      ∀ passed later, back = passed ++ later → bracketDepth 0 passed = 0 →
        c.Inside s (m.skip passed.length) := by
  obtain ⟨front, back, hsplit, rfl, hdepth⟩ := hm
  refine ⟨back, fun t ht => by simp [hsplit, ht], State.rest_skip ?_, fun passed later hback hpassed => ?_⟩
  · rw [hrest, hsplit, List.append_assoc]
  · refine ⟨front ++ passed, later, by rw [hsplit, hback, List.append_assoc], ?_, ?_⟩
    · rw [State.skip_skip, List.length_append]
    · rw [bracketDepth_append, hdepth, hpassed]

/-- Inside of a part another token of it is passed. -/
theorem Clause.Inside.pass {t : Token} {ts : List Token} (hm : c.Inside s m)
    (hrest : s.rest = c.tokens ++ stop :: after) (hahead : m.rest = t :: ts) (ht : t ≠ stop)
    (hword : ¬ t.opens = true ∧ ¬ t.closes = true) : c.Inside s m.advance := by
  obtain ⟨back, -, hback, hinside⟩ := hm.ahead hrest
  cases back with
  | nil =>
      cases hahead.symm.trans hback
      exact absurd rfl ht
  | cons u later =>
      cases hahead.symm.trans hback
      exact hinside [t] later rfl (bracketDepth_word hword.1 hword.2)

/-- Inside of a part two further tokens of it are passed. -/
theorem Clause.Inside.passTwo {t u : Token} {ts : List Token} (hm : c.Inside s m)
    (hrest : s.rest = c.tokens ++ stop :: after) (hahead : m.rest = t :: u :: ts) (ht : t ≠ stop)
    (hu : u ≠ stop) (hdepth : bracketDepth 0 [t, u] = 0) : c.Inside s (m.skip 2) := by
  obtain ⟨back, -, hback, hinside⟩ := hm.ahead hrest
  match back with
  | [] =>
      cases hahead.symm.trans hback
      exact absurd rfl ht
  | [_] =>
      cases hahead.symm.trans hback
      exact absurd rfl hu
  | _ :: _ :: later =>
      cases hahead.symm.trans hback
      exact hinside [t, u] later rfl hdepth

/-- What a part without angle brackets does not hold is not ahead inside of it. -/
theorem Clause.Unangled.not_sees (hc : c.Unangled) (hstop : stop.isAny [";", ")"] = true)
    (hrest : s.rest = c.tokens ++ stop :: after) (hm : c.Inside s m) {text : String}
    (htext : text ∈ "@" :: "<" :: keywords) : m.sees text = false := by
  obtain ⟨back, hback, hahead, -⟩ := hm.ahead hrest
  cases back with
  | nil =>
      rw [State.sees_cons hahead]
      refine Token.is_of_isAny hstop fun hmem => ?_
      revert htext
      simp only [List.mem_cons, List.not_mem_nil, or_false] at hmem
      rcases hmem with rfl | rfl <;> decide
  | cons t back =>
      rw [State.sees_cons hahead]
      exact Bool.eq_false_iff.2 (List.any_eq_false.1 (hc.words t (hback t (.head _))) text htext)

/-- A token that is no end of a part. -/
theorem ne_stop {t : Token} {text : String} (hstop : stop.isAny [";", ")"] = true)
    (ht : t.is text = true) (htext : text ∉ [";", ")"]) : t ≠ stop := by
  rintro rfl
  rw [Token.is_of_isAny hstop htext] at ht
  cases ht

theorem name_ne_stop {t : Token} (hstop : stop.isAny [";", ")"] = true)
    (ht : t.isIdentifier = true) : t ≠ stop := by
  rintro rfl
  obtain ⟨text, -, his⟩ := List.any_eq_true.1 hstop
  rw [Token.isIdentifier_of_is his] at ht
  cases ht

/-- The further parts of a qualified type stay inside. -/
theorem typeSuffixes_inside (hc : c.Unangled) (hstop : stop.isAny [";", ")"] = true)
    (hrest : s.rest = c.tokens ++ stop :: after) (hm : c.Inside s m)
    (hok : typeSuffixes setting m = .ok () n) : c.Inside s n := by
  refine repeatWhile_keeps (c.Inside s) (fun {m more n} hm hok => ?_) hm hok
  have hangle : m.sees "<" = false := hc.not_sees hstop hrest hm (by decide)
  rw [bind_of_ok (show state setting m = .ok m m from rfl), hangle, if_neg Bool.false_ne_true] at hok
  split at hok
  · rename_i hpair
    obtain ⟨hdot, hname⟩ := Bool.and_eq_true_iff.1 hpair
    obtain ⟨t, ts, hahead, ht⟩ := State.exists_cons_of_sees hdot
    cases hok
    cases ts with
    | nil => simp [State.seesIdentifierSecond, hahead] at hname
    | cons u ts =>
        have hu : u.isIdentifier = true := by simpa [State.seesIdentifierSecond, hahead] using hname
        have hfirst := Token.not_bracket_of_is ht (by decide)
        have hsecond := Token.not_bracket_of_isIdentifier hu
        have hdepth : bracketDepth 0 [t, u] = 0 := by
          rw [bracketDepth_cons, bracketDepth_word hfirst.1 hfirst.2,
            bracketDepth_word hsecond.1 hsecond.2]
        exact hm.passTwo hrest hahead (ne_stop hstop ht (by decide)) (name_ne_stop hstop hu) hdepth
  · split at hok
    · rename_i hpair
      -- No annotation is ahead behind the dot.
      obtain ⟨hdot, hannotation⟩ := Bool.and_eq_true_iff.1 hpair
      obtain ⟨t, ts, hahead, ht⟩ := State.exists_cons_of_sees hdot
      have hnext := hm.pass hrest hahead (ne_stop hstop ht (by decide))
        (Token.not_bracket_of_is ht (by decide))
      have hsees : m.advance.sees "@" = m.seesSecond "@" := by
        simp [State.sees, State.seesSecond, State.rest_advance hahead, hahead,
          List.head?_eq_getElem?]
      rw [← hsees, hc.not_sees hstop hrest hnext (by decide)] at hannotation
      cases hannotation
    · obtain ⟨-, rfl⟩ := pure_eq_ok.1 hok
      exact hm

/-- Pairs of square brackets stay inside. -/
theorem dimensions_inside (hstop : stop.isAny [";", ")"] = true)
    (hrest : s.rest = c.tokens ++ stop :: after) (hm : c.Inside s m)
    (hok : dimensions setting m = .ok () n) : c.Inside s n := by
  refine repeatWhile_keeps (c.Inside s) (fun {m more n} hm hok => ?_) hm hok
  rw [bind_of_ok (show state setting m = .ok m m from rfl)] at hok
  split at hok
  · rename_i hpair
    obtain ⟨hopening, hclosing⟩ := Bool.and_eq_true_iff.1 hpair
    obtain ⟨t, ts, hahead, ht⟩ := State.exists_cons_of_sees hopening
    cases hok
    cases ts with
    | nil => simp [State.seesSecond, hahead] at hclosing
    | cons u ts =>
        have hu : u.is "]" = true := by simpa [State.seesSecond, hahead] using hclosing
        have hopens : t.opens = true := by simp [Token.opens, Token.isAny, ht]
        have hcloses : u.closes = true := by simp [Token.closes, Token.isAny, hu]
        have hnot : ¬ u.opens = true := fun hopens => by
          rw [Token.closes_of_opens hopens] at hcloses
          cases hcloses
        have hdepth : bracketDepth 0 [t, u] = 0 := by
          rw [bracketDepth_cons, bracketDepth_opens hopens, bracketDepth_closes hnot hcloses]
        exact hm.passTwo hrest hahead (ne_stop hstop ht (by decide)) (ne_stop hstop hu (by decide))
          hdepth
  · obtain ⟨-, rfl⟩ := pure_eq_ok.1 hok
    exact hm

/-- Where no annotation is ahead none is passed. -/
theorem annotations_of_not (h : s.seesAnnotation = false) : annotations setting s = .ok () s := by
  show repeatLoop _ _ setting s = _
  rw [repeatLoop]
  simp only [Parser.bind, bind_of_ok (show state setting s = .ok s s from rfl), h]
  rfl

/-- A part without angle brackets holds none of the keywords. -/
theorem Clause.Unangled.not_keyword (hc : c.Unangled) {t : Token} (ht : t ∈ c.tokens)
    {words : List String} (hwords : ∀ word ∈ words, word ∈ "@" :: "<" :: keywords) :
    ¬ (t.isKeyword && words.contains t.text) = true := by
  intro h
  obtain ⟨hkeyword, hword⟩ := Bool.and_eq_true_iff.1 h
  have his : t.is t.text = true := by
    simp only [Token.isKeyword, beq_iff_eq] at hkeyword
    simp [Token.is, hkeyword]
  exact List.any_eq_false.1 (hc.words t ht) _ (hwords _ (List.contains_iff_mem.1 hword)) his

/-- A part without angle brackets and keywords begins a type with a name or a wildcard only. -/
theorem Clause.Unangled.typeStart (hc : c.Unangled) (hstop : stop.isAny [";", ")"] = true)
    (h : c.first.isTypeStart = true ∨ c.first.is "?" = true) :
    c.first ≠ stop ∧ ¬ c.first.opens = true ∧ ¬ c.first.closes = true := by
  rcases h with h | h
  · rcases Bool.or_eq_true_iff.1 h with hname | hprimitive
    · exact ⟨name_ne_stop hstop hname, Token.not_bracket_of_isIdentifier hname⟩
    · exact absurd hprimitive (hc.not_keyword (.head _) (by decide))
  · exact ⟨ne_stop hstop h (by decide), Token.not_bracket_of_is h (by decide)⟩

/-- **The type of a part without angle brackets stays inside.** -/
theorem typeReference_inside {typeName : String} (hc : c.Unangled)
    (hstop : stop.isAny [";", ")"] = true) (hrest : s.rest = c.tokens ++ stop :: after)
    (hok : typeReference setting s = .ok typeName n) : c.Inside s n := by
  have hs : c.Inside s s := ⟨[], c.tokens, rfl, rfl, rfl⟩
  have hahead : s.rest = c.first :: (c.others ++ stop :: after) := hrest
  have hannotation : s.seesAnnotation = false := by
    rw [ State.seesAnnotation, hc.not_sees hstop hrest hs (by decide), Bool.false_and]
  unfold typeReference at hok
  rw [bind_of_ok (annotations_of_not hannotation),
    bind_of_ok (show state setting s = .ok s s from rfl)] at hok
  split at hok
  · rename_i hstart
    have hstart : c.first.isTypeStart = true ∨ c.first.is "?" = true := by
      rw [State.sees_cons hahead, hahead] at hstart
      exact Bool.or_eq_true_iff.1 hstart
    obtain ⟨hne, hword⟩ := hc.typeStart hstop hstart
    obtain ⟨_, _, hadvance, hok⟩ := bind_eq_ok.1 hok
    cases hadvance
    obtain ⟨_, m, hsuffixes, hok⟩ := bind_eq_ok.1 hok
    obtain ⟨_, k, hdimensions, hok⟩ := bind_eq_ok.1 hok
    obtain ⟨_, _, hstate, hok⟩ := bind_eq_ok.1 hok
    cases hstate
    obtain ⟨-, rfl⟩ := pure_eq_ok.1 hok
    have hfirst := hs.pass hrest hahead hne hword
    exact dimensions_inside hstop hrest (typeSuffixes_inside hc hstop hrest hfirst hsuffixes)
      hdimensions
  · cases hok

/-- No modifier stands in front of a part without keywords. -/
theorem modifiers_of_unangled (setting : Setting) (hc : c.Unangled)
    (hstop : stop.isAny [";", ")"] = true) (hrest : s.rest = c.tokens ++ stop :: after) :
    modifiers setting s = .ok [] s := by
  have hs : c.Inside s s := ⟨[], c.tokens, rfl, rfl, rfl⟩
  have hahead : s.rest = c.first :: (c.others ++ stop :: after) := hrest
  have hmodifier : s.modifier? = none := by
    rw [State.modifier?, hahead]
    exact if_neg (hc.not_keyword (.head _) (by decide))
  have hsealed : s.sealedLength? = none := by
    obtain ⟨next, rest, hnext⟩ := List.exists_cons_of_ne_nil
      (List.append_ne_nil_of_right_ne_nil c.others (List.cons_ne_nil stop after))
    have hstart : c.first.isName "non" = false := hc.start
    rw [State.sealedLength?, hahead, hnext]
    simp only [hstart, Bool.false_eq_true, if_false]
    split
    · rename_i hname
      have hname := (Bool.and_eq_true_iff.1 hname).1
      have hinside := hs.pass hrest hahead (name_ne_stop hstop hname)
        (Token.not_bracket_of_isIdentifier hname)
      have hwords : ∀ word ∈ ["class", "interface", "abstract", "public"],
          word ∈ "@" :: "<" :: keywords := by decide
      refine if_neg (Bool.eq_false_iff.1 (List.any_eq_false.2 fun word hword => ?_))
      rw [← State.sees_cons ((State.rest_advance hahead).trans hnext),
        hc.not_sees hstop hrest hinside (hwords word hword)]
      exact Bool.false_ne_true
    · rfl
  have hannotation : s.seesAnnotation = false := by
    rw [ State.seesAnnotation, hc.not_sees hstop hrest hs (by decide), Bool.false_and]
  refine gather_of_stop ?_
  rw [bind_of_ok (show state setting s = .ok s s from rfl)]
  simp only [hmodifier, hsealed, hannotation]
  rfl

/-- **A part without angle brackets keeps its head.** -/
theorem Clause.Unangled.keepsHead (setting : Setting) (hc : c.Unangled)
    (hstop : stop.isAny [";", ")"] = true) (hrest : s.rest = c.tokens ++ stop :: after) :
    c.KeepsHead setting s := by
  have hhead (declares : Bool) (hdeclares : looksLikeLocalDeclaration setting s = .ok declares s) :
      clauseHead setting s =
        (if declares then (do let _ ← typeReference) else Pure.pure () : Parser Unit) setting s := by
    unfold clauseHead
    rw [bind_of_ok (modifiers_of_unangled setting hc hstop hrest), bind_of_ok hdeclares]
    rfl
  have hstays (hdeclares : looksLikeLocalDeclaration setting s = .ok false s) :
      c.KeepsHead setting s := ⟨[], c.first, c.others, rfl, rfl, hhead false hdeclares⟩
  cases htype : typeReference setting s with
  | fail e m => exact hstays (by simp only [looksLikeLocalDeclaration, lookingPast, htype])
  | ok typeName n =>
      cases htest : n.seesIdentifier && ["=", ";", ",", "[", ":"].any n.seesSecond with
      | false => exact hstays (by simp only [looksLikeLocalDeclaration, lookingPast, htype, htest])
      | true =>
          -- The name of the variable stands in the part, because what follows the part is no name.
          obtain ⟨front, back, hsplit, rfl, hdepth⟩ := typeReference_inside hc hstop hrest htype
          have hdeclares : looksLikeLocalDeclaration setting s = .ok true s := by
            simp only [looksLikeLocalDeclaration, lookingPast, htype, htest]
          have hahead : (s.skip front.length).rest = back ++ stop :: after := by
            refine State.rest_skip ?_
            rw [hrest, hsplit, List.append_assoc]
          have hname := (Bool.and_eq_true_iff.1 htest).1
          cases back with
          | nil =>
              rw [State.seesIdentifier, hahead] at hname
              exact absurd rfl (name_ne_stop hstop hname)
          | cons t back =>
              refine ⟨front, t, back, hsplit, hdepth, (hhead true hdeclares).trans ?_⟩
              exact bind_of_ok htype

end

end JavaOutline
