/-
**How parsers move.**

A parser that answers without having reported anything has passed some tokens and has done nothing
else: it stands ahead of where it began, at the same level of nesting.  Most parsers also read the
same whether bodies are passed over or not.  Both are classes of parsers, so a parser that is put
together from such parsers has the property by inference.

Main definitions:

* `Parser.Steady` — a parser that only passes tokens, unless it reports something;
* `Parser.Plain` — a steady parser that reads the same on a diet;
* `Parser.collect` — repetition without the values found before.

Main results:

* `Parser.gather_eq_collect` — what a repetition finds does not depend on how it is kept;
* the instances — **every parser of phrases is plain, and every parser of statements and
  declarations is steady**, at every level of nesting.
-/

import JavaOutline.Outline.Declarations
import JavaOutline.Proofs.TokenOrder

set_option autoImplicit false

namespace JavaOutline

open JavaOutline.Parser

namespace Parser

variable {α β : Type}

/-! ### The classes -/

/-- From one state to another some tokens were passed at the same level of nesting, and nothing had
been reported before. -/
structure State.Leads (s n : State) : Prop where
  silent : s.errors = #[]
  depth : n.depth = s.depth
  reaches : s.Reaches n

/-- A parser that, if it answers and nothing is reported by then, has only passed some tokens. -/
class Steady (p : Parser α) : Prop where
  leads : ∀ {setting s a n}, p setting s = .ok a n → n.errors = #[] → s.Leads n

/-- A steady parser for which it is all the same whether bodies are passed over. -/
class Plain (p : Parser α) : Prop where
  steady : Steady p
  blind : ∀ (setting : Setting) (diet : Bool) (s : State),
    p { setting with diet } s = p setting s

-- Tried last: a long parser is taken apart as a steady one before it is asked whether it is plain.
instance (priority := low) (p : Parser α) [Plain p] : Steady p := Plain.steady

/-! ### States -/

namespace State

/-- Passing some tokens and then some more is passing tokens. -/
theorem Leads.trans {s m n : State} (h : s.Leads m) (h' : m.Leads n) : s.Leads n :=
  ⟨h.silent, h'.depth.trans h.depth, h.reaches.trans h'.reaches⟩

@[simp] theorem advance_errors (s : State) : s.advance.errors = s.errors := by
  unfold advance
  split <;> rfl

@[simp] theorem advance_depth (s : State) : s.advance.depth = s.depth := by
  unfold advance
  split <;> rfl

@[simp] theorem skip_errors (n : Nat) (s : State) : (s.skip n).errors = s.errors := by
  induction n generalizing s with
  | zero => rfl
  | succ n ih => exact (ih s.advance).trans s.advance_errors

@[simp] theorem skip_depth (n : Nat) (s : State) : (s.skip n).depth = s.depth := by
  induction n generalizing s with
  | zero => rfl
  | succ n ih => exact (ih s.advance).trans s.advance_depth

@[simp] theorem recovered_errors (s : State) : s.recovered.errors = s.errors :=
  skip_errors _ s

/-- An error that is reported stays reported. -/
theorem report_errors_ne (s : State) (e : SyntaxError) : (s.report e).errors ≠ #[] := by
  simp [report]

end State

/-- A parser that answers and passes some tokens is steady. -/
theorem Steady.of_skip {p : Parser α}
    (h : ∀ {setting s a n}, p setting s = .ok a n → ∃ k, n = s.skip k) : Steady p where
  leads hok hn := by
    obtain ⟨k, rfl⟩ := h hok
    exact ⟨(State.skip_errors k _).symm.trans hn, State.skip_depth k _, State.reaches_skip k _⟩

/-- A parser that answers and stays where it is is steady. -/
theorem Steady.of_still {p : Parser α}
    (h : ∀ {setting s a n}, p setting s = .ok a n → n = s) : Steady p :=
  Steady.of_skip fun hok => ⟨0, h hok⟩

/-- A parser that reports something is steady for want of a silent answer. -/
theorem Steady.of_loud {p : Parser α}
    (h : ∀ {setting s a n}, p setting s = .ok a n → n.errors ≠ #[]) : Steady p where
  leads hok hn := absurd hn (h hok)

/-! ### One parser after another -/

/-- Behind an answer the second parser goes on. -/
theorem bind_of_ok {p : Parser α} {f : α → Parser β} {setting : Setting} {s m : State} {a : α}
    (h : p setting s = .ok a m) : (p >>= f) setting s = f a setting m := by
  show Parser.bind p f setting s = _
  simp only [Parser.bind, h]

/-- An error ends both. -/
theorem bind_of_fail {p : Parser α} {f : α → Parser β} {setting : Setting} {s m : State}
    {e : SyntaxError} (h : p setting s = .fail e m) : (p >>= f) setting s = .fail e m := by
  show Parser.bind p f setting s = _
  simp only [Parser.bind, h]

/-- When one parser after another answers. -/
theorem bind_eq_ok {p : Parser α} {f : α → Parser β} {setting : Setting} {s n : State} {b : β} :
    (p >>= f) setting s = .ok b n ↔
      ∃ a m, p setting s = .ok a m ∧ f a setting m = .ok b n := by
  constructor
  · intro hok
    cases h : p setting s with
    | ok a m => exact ⟨a, m, rfl, (bind_of_ok h).symm.trans hok⟩
    | fail e m =>
        rw [bind_of_fail h] at hok
        cases hok
  · rintro ⟨a, m, hp, hf⟩
    rw [bind_of_ok hp, hf]

theorem pure_eq_ok {a b : α} {setting : Setting} {s n : State} :
    (Pure.pure a : Parser α) setting s = .ok b n ↔ a = b ∧ s = n := by
  show Answer.ok a s = .ok b n ↔ _
  simp

instance (a : α) : Plain (Pure.pure a : Parser α) where
  steady := Steady.of_still fun h => (pure_eq_ok.1 h).2.symm
  blind _ _ _ := rfl

instance (p : Parser α) (f : α → Parser β) [Steady p] [∀ a, Steady (f a)] : Steady (p >>= f) where
  leads hok hn := by
    obtain ⟨a, m, hp, hf⟩ := bind_eq_ok.1 hok
    have hlater := Steady.leads hf hn
    exact (Steady.leads hp hlater.silent).trans hlater

instance (p : Parser α) (f : α → Parser β) [Plain p] [∀ a, Plain (f a)] : Plain (p >>= f) where
  steady := inferInstance
  blind setting diet s := by
    have hp := Plain.blind (p := p) setting diet s
    cases h : p setting s with
    | ok a m =>
        rw [bind_of_ok h, bind_of_ok (hp.trans h)]
        exact Plain.blind setting diet m
    | fail e m => rw [bind_of_fail h, bind_of_fail (hp.trans h)]

instance (c : Prop) [Decidable c] (p q : Parser α) [Steady p] [Steady q] :
    Steady (if c then p else q) := by
  split <;> infer_instance

instance (c : Prop) [Decidable c] (p q : Parser α) [Plain p] [Plain q] :
    Plain (if c then p else q) := by
  split <;> infer_instance

/-! ### Single tokens -/

instance : Plain state where
  steady := Steady.of_still fun h => by cases h; rfl
  blind _ _ _ := rfl

instance (f : State → α) : Plain (ask f) where
  steady := Steady.of_still fun h => by cases h; rfl
  blind _ _ _ := rfl

instance (text : String) : Plain (sees text) := by
  unfold sees
  infer_instance

instance (start : Position) : Plain (spanFrom start) := by
  unfold spanFrom
  infer_instance

instance : Plain here where
  steady := Steady.of_still fun h => by cases h; rfl
  blind _ _ _ := rfl

instance : Steady isDiet := Steady.of_still fun h => by cases h; rfl

instance (expected : String) : Plain (unexpected expected : Parser α) where
  steady := Steady.of_still fun h => by cases h
  blind _ _ _ := rfl

instance : Plain advance where
  steady := Steady.of_skip fun h => ⟨1, by cases h; rfl⟩
  blind _ _ _ := rfl

instance (n : Nat) : Plain (skip n) where
  steady := Steady.of_skip fun h => ⟨n, by cases h; rfl⟩
  blind _ _ _ := rfl

instance (text : String) : Plain (accept text) where
  steady := Steady.of_skip fun h => by
    unfold accept at h
    split at h <;> cases h
    · exact ⟨1, rfl⟩
    · exact ⟨0, rfl⟩
  blind _ _ _ := rfl

/-- Reading a keyword or operator passes it. -/
theorem expect_eq_ok {text : String} {setting : Setting} {s n : State} {span : Span}
    (hok : expect text setting s = .ok span n) : n = s.advance := by
  unfold expect at hok
  split at hok
  · split at hok <;> cases hok
    rfl
  · cases hok

instance (text : String) : Plain (expect text) where
  steady := Steady.of_skip fun h => ⟨1, expect_eq_ok h⟩
  blind _ _ _ := rfl

instance : Plain identifier where
  steady := Steady.of_skip fun h => by
    unfold identifier at h
    split at h
    · split at h <;> cases h
      exact ⟨1, rfl⟩
    · cases h
  blind _ _ _ := rfl

instance (opener closer : String) : Plain (bracketed opener closer) where
  steady := Steady.of_skip fun h => by
    unfold bracketed at h
    dsimp only at h
    split at h <;> cases h
    rename_i n _
    exact ⟨n + 1, rfl⟩
  blind _ _ _ := rfl

/-! ### Repetition -/

/-- What a repetition finds from a turn on, given how it would go on. -/
def behindTurn (later : Parser (List α)) : Turn α → Parser (List α)
  | .stop => Pure.pure []
  | .skip => later
  | .take a => later >>= fun found => Pure.pure (a :: found)
  | .final a => Pure.pure [a]

/-- Takes turns until one ends the repetition, `fuel` times at most, and keeps what it finds in
order. -/
def collect (turn : Parser (Turn α)) : Nat → Parser (List α)
  | 0 => Pure.pure []
  | fuel + 1 => turn >>= behindTurn (collect turn fuel)

/-- The first value that a repetition finds is the one its first turn takes. -/
theorem behindTurn_cons {later : Parser (List α)} {value : Turn α} {a : α} {vs : List α}
    {setting : Setting} {m t : State} (hvalue : value = .take a ∨ value = .final a)
    (hok : behindTurn later value setting m = .ok vs t) : ∃ rest, vs = a :: rest := by
  rcases hvalue with rfl | rfl
  · obtain ⟨rest, _, -, hcons⟩ := bind_eq_ok.1 hok
    exact ⟨rest, (pure_eq_ok.1 hcons).1.symm⟩
  · exact ⟨[], (pure_eq_ok.1 hok).1.symm⟩

/-- What was found before stands in front of what is found from here on. -/
theorem gatherLoop_eq_collect (turn : Parser (Turn α)) (fuel : Nat) (found : Array α)
    (setting : Setting) (s : State) :
    gatherLoop turn fuel found setting s =
      (collect turn fuel >>= fun later => Pure.pure (found.toList ++ later)) setting s := by
  induction fuel generalizing found s with
  | zero =>
      show Answer.ok found.toList s = .ok (found.toList ++ []) s
      rw [List.append_nil]
  | succ fuel ih =>
      show Parser.bind turn _ setting s = Parser.bind (Parser.bind turn _) _ setting s
      unfold Parser.bind
      cases turn setting s with
      | fail e n => rfl
      | ok value n =>
          cases value with
          | stop =>
              show Answer.ok found.toList n = .ok (found.toList ++ []) n
              rw [List.append_nil]
          | skip => exact ih found n
          | take a =>
              refine (ih (found.push a) n).trans ?_
              show Parser.bind (collect turn fuel) _ setting n =
                Parser.bind (Parser.bind (collect turn fuel) _) _ setting n
              unfold Parser.bind
              cases collect turn fuel setting n with
              | fail e n' => rfl
              | ok later n' =>
                  show Answer.ok ((found.push a).toList ++ later) n' =
                    .ok (found.toList ++ a :: later) n'
                  rw [Array.toList_push, List.append_assoc, List.singleton_append]
          | final a =>
              show Answer.ok (found.push a).toList n = .ok (found.toList ++ [a]) n
              rw [Array.toList_push]

/-- **What a repetition finds does not depend on how it is kept.** -/
theorem gather_eq_collect (turn : Parser (Turn α)) (setting : Setting) (s : State) :
    gather turn setting s = collect turn (setting.total - s.index + 1) setting s := by
  refine (gatherLoop_eq_collect turn _ #[] setting s).trans ?_
  show Parser.bind (collect turn (setting.total - s.index + 1)) _ setting s = _
  unfold Parser.bind
  cases collect turn (setting.total - s.index + 1) setting s <;> rfl

instance (later : Parser (List α)) [Steady later] (value : Turn α) :
    Steady (behindTurn later value) := by
  cases value <;> unfold behindTurn <;> infer_instance

instance (later : Parser (List α)) [Plain later] (value : Turn α) :
    Plain (behindTurn later value) := by
  cases value <;> unfold behindTurn <;> infer_instance

instance collect_steady (turn : Parser (Turn α)) [Steady turn] (fuel : Nat) :
    Steady (collect turn fuel) := by
  induction fuel with
  | zero => exact inferInstanceAs (Steady (Pure.pure [] : Parser (List α)))
  | succ fuel ih => exact inferInstanceAs (Steady (turn >>= behindTurn (collect turn fuel)))

instance collect_plain (turn : Parser (Turn α)) [Plain turn] (fuel : Nat) :
    Plain (collect turn fuel) := by
  induction fuel with
  | zero => exact inferInstanceAs (Plain (Pure.pure [] : Parser (List α)))
  | succ fuel ih => exact inferInstanceAs (Plain (turn >>= behindTurn (collect turn fuel)))

instance (turn : Parser (Turn α)) [Steady turn] : Steady (gather turn) where
  leads hok := Steady.leads ((gather_eq_collect turn _ _).symm.trans hok)

instance (turn : Parser (Turn α)) [Plain turn] : Plain (gather turn) where
  steady := inferInstance
  blind setting diet s := by
    rw [gather_eq_collect, gather_eq_collect]
    exact Plain.blind setting diet s

instance repeatLoop_plain (turn : Parser Bool) [Plain turn] (fuel : Nat) :
    Plain (repeatLoop turn fuel) := by
  induction fuel with
  | zero => exact inferInstanceAs (Plain (Pure.pure () : Parser Unit))
  | succ fuel ih =>
      exact inferInstanceAs
        (Plain (turn >>= fun more => if more then repeatLoop turn fuel else Pure.pure ()))

instance (turn : Parser Bool) [Plain turn] : Plain (repeatWhile turn) where
  steady := ⟨fun {setting s _ _} hok =>
    Steady.leads (p := repeatLoop turn (setting.total - s.index + 1)) hok⟩
  blind setting diet s :=
    Plain.blind (p := repeatLoop turn (setting.total - s.index + 1)) setting diet s

instance (text : String) (p : Parser α) [Steady p] : Steady (whenAccepted text p) := by
  unfold whenAccepted
  infer_instance

instance (text : String) (p : Parser α) [Plain p] : Plain (whenAccepted text p) := by
  unfold whenAccepted
  infer_instance

instance (item : Parser α) [Plain item] : Plain (commaSeparated item) := by
  unfold commaSeparated
  have : ∀ value : Option α, Plain (match value with
      | some value => Pure.pure (Turn.take value)
      | none => Pure.pure Turn.stop : Parser (Turn α)) := by
    intro value
    cases value <;> infer_instance
  infer_instance

/-! ### Nesting and errors -/

instance : Steady (tooDeep : Parser α) := Steady.of_still fun h => by cases h

/-- When a parser answers one level deeper. -/
theorem guarded_eq_ok {p : Parser α} {setting : Setting} {s n : State} {a : α} :
    guarded p setting s = .ok a n ↔ s.depth + 1 ≤ maxNesting ∧
      ∃ m, p setting { s with depth := s.depth + 1 } = .ok a m ∧
        { m with depth := m.depth - 1 } = n := by
  unfold guarded
  dsimp only
  split
  · rename_i hdeep
    simp only [tooDeep, reduceCtorEq, false_iff, not_and]
    omega
  · rename_i hdeep
    cases hp : p setting { s with depth := s.depth + 1 } with
    | fail e m => simp
    | ok b m =>
        constructor
        · intro hok
          cases hok
          exact ⟨Nat.not_lt.1 hdeep, m, rfl, rfl⟩
        · rintro ⟨-, m', hm, rfl⟩
          cases hm
          rfl

instance (p : Parser α) [Steady p] : Steady (guarded p) where
  leads {setting s a n} hok hn := by
    obtain ⟨-, m, hp, rfl⟩ := guarded_eq_ok.1 hok
    have hinner := Steady.leads hp hn
    have hdepth : m.depth = s.depth + 1 := hinner.depth
    have hback : m.depth - 1 = s.depth := by omega
    exact ⟨hinner.silent, hback, hinner.reaches⟩

/-- What is reported is not gone at the end. -/
theorem reportUnexpected_loud {expected : String} {setting : Setting} {s n : State} {a : Unit}
    (hok : reportUnexpected expected setting s = .ok a n) : n.errors ≠ #[] := by
  cases hok
  exact s.report_errors_ne _

/-- A parser whose errors are reported has answered, if nothing is reported at the end. -/
theorem orReport_eq_ok {p : Parser Unit} {setting : Setting} {s n : State} {a : Unit}
    (hok : orReport p setting s = .ok a n) (hn : n.errors = #[]) : p setting s = .ok a n := by
  unfold orReport at hok
  split at hok
  · rename_i hp
    cases hok
    exact hp
  · cases hok
    exact absurd hn (State.report_errors_ne _ _)

/-- A parser whose errors are passed over has answered, if nothing is reported at the end. -/
theorem orRecover_eq_ok {p : Parser α} {setting : Setting} {s n : State} {found : Option α}
    (hok : orRecover p setting s = .ok found n) (hn : n.errors = #[]) :
    ∃ a, found = some a ∧ p setting s = .ok a n := by
  unfold orRecover at hok
  split at hok
  · rename_i a _ hp
    cases hok
    exact ⟨a, rfl, hp⟩
  · cases hok
    rw [State.recovered_errors] at hn
    exact absurd hn (State.report_errors_ne _ _)

/-- The turn of a parser whose errors are passed over takes a value, if nothing is reported at the
end. -/
theorem orSkip_eq_ok {p : Parser α} {setting : Setting} {s n : State} {value : Turn α}
    (hok : orSkip p setting s = .ok value n) (hn : n.errors = #[]) :
    ∃ a, value = .take a ∧ p setting s = .ok a n := by
  unfold orSkip at hok
  split at hok
  · rename_i a _ hp
    cases hok
    exact ⟨a, rfl, hp⟩
  · have hloud : n.errors ≠ #[] := by
      cases hok
      split <;> simp [State.recovered_errors, State.report_errors_ne]
    exact absurd hn hloud

instance (expected : String) : Steady (reportUnexpected expected) :=
  Steady.of_loud reportUnexpected_loud

instance (p : Parser Unit) [Plain p] : Plain (orReport p) where
  steady := ⟨fun hok hn => Steady.leads (orReport_eq_ok hok hn) hn⟩
  blind setting diet s := by
    unfold orReport
    rw [Plain.blind (p := p) setting diet s]

instance (p : Parser α) [Plain p] : Plain (orRecover p) where
  steady := ⟨fun hok hn => by
    obtain ⟨a, -, hp⟩ := orRecover_eq_ok hok hn
    exact Steady.leads hp hn⟩
  blind setting diet s := by
    unfold orRecover
    rw [Plain.blind (p := p) setting diet s]

instance (p : Parser α) [Steady p] : Steady (orSkip p) where
  leads hok hn := by
    obtain ⟨a, -, hp⟩ := orSkip_eq_ok hok hn
    exact Steady.leads hp hn

instance (p : Parser α) (test : State → Bool) : Steady (lookingPast p test) :=
  Steady.of_still fun h => by
    unfold lookingPast at h
    split at h <;> cases h <;> rfl

end Parser

/-! ### Phrases -/

instance : Plain qualifiedName := by
  unfold qualifiedName
  infer_instance

instance : Plain annotations := by
  unfold annotations
  infer_instance

instance : Plain modifiers := by
  unfold modifiers
  have : ∀ s : State, Plain (match s.modifier?, s.sealedLength? with
      | some word, _ => do
          advance
          return Turn.take word
      | none, some n => do
          Parser.skip n
          return Turn.skip
      | none, none =>
          if s.seesAnnotation then do
            annotations
            return Turn.skip
          else return Turn.stop : Parser (Turn String)) := by
    intro s
    split <;> infer_instance
  infer_instance

instance : Plain dimensions := by
  unfold dimensions
  infer_instance

instance : Plain typeSuffixes := by
  unfold typeSuffixes
  infer_instance

instance : Plain typeReference := by
  unfold typeReference
  infer_instance

instance : Plain typeList := by
  unfold typeList
  infer_instance

instance : Plain typeParameters := by
  unfold typeParameters
  infer_instance

instance (stops : List String) : Plain (expressionUntil stops) := by
  unfold expressionUntil
  have : ∀ s : State, Plain (match s.rest.take (expressionLength stops 0 s.rest) with
      | [] => unexpected "expression"
      | first :: rest => do
          Parser.skip (expressionLength stops 0 s.rest)
          return Expression.ofTokens first rest : Parser Expression) := by
    intro s
    split <;> infer_instance
  infer_instance

instance : Plain arguments := by
  unfold arguments
  infer_instance

instance (name : String) (start : Position) : Plain (declarator name start) := by
  unfold declarator
  infer_instance

instance (firstName : String) : Plain (declarators firstName) := by
  unfold declarators
  infer_instance

instance : Plain parenthesized := by
  unfold parenthesized
  infer_instance

instance : Steady looksLikeLocalDeclaration := by
  unfold looksLikeLocalDeclaration
  infer_instance

end JavaOutline
