/-
**Expressions that are captured whole.**

An expression is captured up to a stop that stands outside of its brackets, and the sort of what was
captured is read off the tokens outside of its brackets and of its lists of type arguments.  Capturing
knows nothing of type arguments, so a comma between two of them is a stop.  An expression whose commas
and semicolons are all enclosed, in brackets or in type arguments, is therefore captured whole exactly
if no comma stands outside of its brackets; and the variables of a declaration and the arguments of an
enum constant are told apart in the same way.

Main definitions:

* `InTypeArguments`, `Enclosed` — a comma or a semicolon is enclosed;
* `Parser.State.AheadOf` — what is ahead, up to a token that ends it;
* `NoCommaOutside` — no comma stands outside of the brackets.

Main results:

* `expressionUntil_whole`, `expressionUntil_cut` — what is captured without and with a stop outside;
* `captured_whole_iff` — **an expression is captured whole, as an initializer and as an argument,
  exactly if no comma stands outside of its brackets**.
-/

import JavaOutline.Proofs.BracketPairs
import JavaOutline.Proofs.Capturing
import JavaOutline.Proofs.FaultlessReading

set_option autoImplicit false

namespace JavaOutline

open JavaOutline.Parser

/-! ### What encloses a comma -/

/-- The token at a place stands in a list of type arguments that begins in front of it. -/
def InTypeArguments (tokens : List Token) (place : Nat) : Prop :=
  ∃ start < place, tokens[start]?.any (·.is "<") = true ∧
    (typeArgumentsLength? 0 (tokens.drop start)).any (fun n => decide (place < start + n)) = true

instance (tokens : List Token) (place : Nat) : Decidable (InTypeArguments tokens place) :=
  inferInstanceAs (Decidable (∃ start < place, _ ∧ _))

/-- Every comma and every semicolon stands in brackets or in a list of type arguments. -/
def Enclosed (tokens : List Token) : Prop :=
  ∀ place < tokens.length, tokens[place]?.any (·.isAny [",", ";"]) = true →
    0 < bracketDepth 0 (tokens.take place) ∨ InTypeArguments tokens place

instance (tokens : List Token) : Decidable (Enclosed tokens) :=
  inferInstanceAs (Decidable (∀ place < tokens.length, _ → _))

/-- No comma stands outside of the brackets. -/
def NoCommaOutside (tokens : List Token) : Prop := ∀ t, Outside 0 t tokens → t.is "," = false

instance (tokens : List Token) : Decidable (NoCommaOutside tokens) :=
  decidable_of_iff (∀ t ∈ outsideTokens 0 tokens, t.is "," = false)
    (forall_congr' fun _ => imp_congr mem_outsideTokens Iff.rfl)

/-- What a list of type arguments may be made of. -/
theorem typeArgumentsLength?_part {depth n : Nat} {front back : List Token} {t : Token}
    (h : typeArgumentsLength? depth (front ++ t :: back) = some n) (hn : front.length < n) :
    t.is "<" = true ∨ t.is ">" = true ∨ isTypeArgumentPart t = true := by
  induction front generalizing depth n with
  | nil =>
      rw [List.nil_append, typeArgumentsLength?] at h
      split at h
      · exact .inl ‹_›
      · split at h
        · exact .inr (.inl ‹_›)
        · split at h
          · exact .inr (.inr ‹_›)
          · cases h
  | cons first front ih =>
      -- Whatever the first token is, the list goes on behind it.
      have hlater {depth : Nat}
          (h : (typeArgumentsLength? depth (front ++ t :: back)).map (· + 1) = some n) :
          t.is "<" = true ∨ t.is ">" = true ∨ isTypeArgumentPart t = true := by
        obtain ⟨m, hm, rfl⟩ := Option.map_eq_some_iff.1 h
        exact ih hm (Nat.lt_of_succ_lt_succ hn)
      rw [List.cons_append, typeArgumentsLength?] at h
      split at h
      · exact hlater h
      · split at h
        · split at h
          · cases h
            exact absurd hn (by simp)
          · exact hlater h
        · split at h
          · exact hlater h
          · cases h

/-- A semicolon stands in no list of type arguments. -/
theorem InTypeArguments.not_semicolon {front back : List Token} {t : Token}
    (h : InTypeArguments (front ++ t :: back) front.length) : t.is ";" = false := by
  obtain ⟨start, hstart, -, hlist⟩ := h
  rw [List.drop_append_of_le_length (Nat.le_of_lt hstart)] at hlist
  cases hn : typeArgumentsLength? 0 (front.drop start ++ t :: back) with
  | none =>
      rw [hn] at hlist
      cases hlist
  | some n =>
      rw [hn, Option.any_some, decide_eq_true_eq] at hlist
      have hless : (front.drop start).length < n := by
        rw [List.length_drop]
        omega
      refine Bool.eq_false_iff.2 fun hsemicolon => ?_
      have htext : t.text = ";" := Token.text_of_is hsemicolon
      have hkind : t.isIdentifier = false := by
        cases hk : t.kind <;> simp [Token.is, Token.isIdentifier, hk] at hsemicolon ⊢
      rcases typeArgumentsLength?_part hn hless with hpart | hpart | hpart
      · simp [Token.text_of_is hpart] at htext
      · simp [Token.text_of_is hpart] at htext
      · simp [isTypeArgumentPart, Token.isTypeStart, Token.isAny, Token.is, hkind, htext,
          primitiveTypes] at hpart

/-- Where every semicolon is enclosed, none stands outside of the brackets. -/
theorem Enclosed.not_semicolon {tokens : List Token} (h : Enclosed tokens) {t : Token}
    (ht : Outside 0 t tokens) : t.is ";" = false := by
  obtain ⟨front, back, rfl, hdepth⟩ := ht
  refine Bool.eq_false_iff.2 fun hsemicolon => ?_
  have hplace : (front ++ t :: back)[front.length]?.any (·.isAny [",", ";"]) = true := by
    simp [Token.isAny, hsemicolon]
  rcases h front.length (by simp) hplace with hinside | hinside
  · rw [List.take_left, hdepth] at hinside
    exact absurd hinside (Nat.lt_irrefl 0)
  · rw [hinside.not_semicolon] at hsemicolon
    cases hsemicolon

/-! ### Single tokens that are ahead -/

namespace Parser

section

variable {setting : Setting} {s : State} {t : Token} {ts : List Token} {text : String}

theorem State.sees_cons (hrest : s.rest = t :: ts) : s.sees text = t.is text := by
  simp [State.sees, hrest]

theorem expect_of_is (hrest : s.rest = t :: ts) (his : t.is text = true) :
    expect text setting s = .ok t.span s.advance := by
  simp only [expect, hrest, if_pos his]

theorem identifier_of_is (hrest : s.rest = t :: ts) (his : t.isIdentifier = true) :
    identifier setting s = .ok t.text s.advance := by
  simp only [identifier, hrest, if_pos his]

theorem accept_of_is (hrest : s.rest = t :: ts) (his : t.is text = true) :
    accept text setting s = .ok true s.advance := by
  simp only [accept, State.sees_cons hrest, if_pos his]

theorem accept_of_not (hrest : s.rest = t :: ts) (his : t.is text = false) :
    accept text setting s = .ok false s := by
  simp only [accept, State.sees_cons hrest, his, if_neg Bool.false_ne_true]

theorem State.rest_advance (hrest : s.rest = t :: ts) : s.advance.rest = ts := by
  rw [State.advance_cons hrest]

/-- Behind so many tokens the others are ahead. -/
theorem State.rest_skip {front back : List Token} (hrest : s.rest = front ++ back) :
    (s.skip front.length).rest = back := by
  induction front generalizing s with
  | nil => exact hrest
  | cons t front ih => exact ih (State.rest_advance hrest)

end

end Parser

/-! ### Captures -/

section

variable {stops : List String} {setting : Setting} {s n : State} {first : Token}
  {others after : List Token}

/-- **An expression is captured whole** if no stop stands outside of its brackets and one is behind
it. -/
theorem expressionUntil_whole (hbrackets : WellBracketed (first :: others))
    (hstops : ∀ t, Outside 0 t (first :: others) → t.isAny stops = false)
    (hrest : s.rest = first :: others ++ after) (hafter : expressionLength stops 0 after = 0) :
    expressionUntil stops setting s =
      .ok (.ofTokens first others) (s.skip (first :: others).length) := by
  have hlength : expressionLength stops 0 s.rest = (first :: others).length := by
    rw [hrest]
    exact (expressionLength_append after (wellBracketed_iff.1 hbrackets) hstops).trans
      (by rw [hafter, Nat.add_zero])
  have htake : s.rest.take (first :: others).length = first :: others := by
    rw [hrest, List.take_left]
  unfold expressionUntil
  rw [bind_of_ok (show state setting s = .ok s s from rfl)]
  simp only [hlength, htake]
  rfl

/-- **An expression ends at a stop** that stands outside of its brackets. -/
theorem expressionUntil_cut (hbrackets : WellBracketed (first :: others)) {u : Token}
    (hu : Outside 0 u (first :: others)) (hstop : u.isAny stops = true)
    (hrest : s.rest = first :: others ++ after) {e : Expression}
    (hok : expressionUntil stops setting s = .ok e n) :
    ∃ t ts, Outside 0 t (first :: others) ∧ t.isAny stops = true ∧ n.rest = t :: ts ∧
      n.index < s.index + (first :: others).length := by
  obtain ⟨-, -, -, hn, -⟩ := expressionUntil_eq_ok hok
  obtain ⟨front, t, back, hsplit, hdepth, ht, hlength⟩ :=
    expressionLength_outside after (wellBracketed_iff.1 hbrackets) hu hstop
  have hlength : expressionLength stops 0 s.rest = front.length := by
    rw [hrest]
    exact hlength
  have hfront : s.rest = front ++ (t :: back ++ after) := by
    rw [hrest, hsplit, List.append_assoc]
  have hle : front.length ≤ s.rest.length := by
    rw [hfront, List.length_append]
    exact Nat.le_add_right _ _
  rw [hlength] at hn
  subst hn
  refine ⟨t, back ++ after, ⟨front, back, hsplit, hdepth⟩, ht, State.rest_skip hfront, ?_⟩
  rw [State.index_skip hle, hsplit, List.length_append, List.length_cons]
  omega

end

/-! ### Repetitions of one turn -/

section

variable {α : Type} {turn : Parser (Turn α)} {setting : Setting} {s m n : State}

theorem gather_of_stop (h : turn setting s = .ok .stop n) : gather turn setting s = .ok [] n := by
  rw [gather_eq_collect, collect, bind_of_ok h]
  rfl

/-- A repetition whose first turn takes something finds something. -/
theorem gather_of_take {found : List α}
    (hturn : ∀ {value m}, turn setting s = .ok value m → ∃ a, value = .take a)
    (hok : gather turn setting s = .ok found n) : ∃ a more, found = a :: more := by
  rw [gather_eq_collect, collect] at hok
  obtain ⟨value, m, hvalue, hok⟩ := bind_eq_ok.1 hok
  obtain ⟨a, rfl⟩ := hturn hvalue
  obtain ⟨more, rfl⟩ := behindTurn_cons (.inl rfl) hok
  exact ⟨a, more, rfl⟩

/-- Between items there are commas, so one item is all that is found in front of anything else. -/
theorem commaSeparated_single {item : Parser α} {a : α} (h : item setting s = .ok a n)
    (hn : n.sees "," = false) : commaSeparated item setting s = .ok [a] n := by
  have haccept : accept "," setting n = .ok false n := by
    simp only [accept, hn, if_neg Bool.false_ne_true]
  unfold commaSeparated
  rw [bind_of_ok h, bind_of_ok (gather_of_stop (n := n) ?_)]
  · rfl
  · unfold whenAccepted
    rw [bind_of_ok (bind_of_ok haccept)]
    rfl

/-- An item in front of a comma is not the only one. -/
theorem commaSeparated_several {item : Parser α} {found : List α}
    (hcomma : ∀ {a m}, item setting s = .ok a m → m.sees "," = true)
    (hok : commaSeparated item setting s = .ok found n) : ∃ a b more, found = a :: b :: more := by
  obtain ⟨a, m, hitem, hok⟩ := bind_eq_ok.1 hok
  obtain ⟨others, k, hothers, hok⟩ := bind_eq_ok.1 hok
  obtain ⟨rfl, rfl⟩ := pure_eq_ok.1 hok
  have haccept : accept "," setting m = .ok true m.advance := by
    simp only [accept, hcomma hitem, if_true]
  have hmore : ∃ b more, others = b :: more := by
    refine gather_of_take (fun hturn => ?_) hothers
    obtain ⟨found, _, hfound, hturn⟩ := bind_eq_ok.1 hturn
    unfold whenAccepted at hfound
    rw [bind_of_ok haccept] at hfound
    obtain ⟨b, _, -, hfound⟩ := bind_eq_ok.1 hfound
    obtain ⟨rfl, rfl⟩ := pure_eq_ok.1 hfound
    exact ⟨b, (pure_eq_ok.1 hturn).1.symm⟩
  obtain ⟨b, more, rfl⟩ := hmore
  exact ⟨a, b, more, rfl⟩

end

/-! ### Variables -/

section

variable {setting : Setting} {s n : State} {name : String} {equals : Token} {ts : List Token}

/-- No pair of brackets is passed over in front of another token. -/
theorem dimensions_of_not {t : Token} (hrest : s.rest = t :: ts) (ht : t.is "[" = false) :
    dimensions setting s = .ok () s := by
  have hpair : s.seesPair "[" "]" = false := by
    rw [State.seesPair, State.sees_cons hrest, ht, Bool.false_and]
  show repeatLoop _ _ setting s = _
  rw [repeatLoop]
  simp only [Parser.bind, bind_of_ok (show state setting s = .ok s s from rfl), hpair]
  rfl

/-- A variable is read with its initializer. -/
theorem declarator_eq_ok {start : Position} {v : VariableDecl} (hrest : s.rest = equals :: ts)
    (hequals : equals.is "=" = true) :
    declarator name start setting s = .ok v n ↔
      ∃ e, expressionUntil [",", ";"] setting s.advance = .ok e n ∧
        v = { name, initializer := some e, span := n.spanFrom start } := by
  have hbracket : equals.is "[" = false := Token.is_of_is hequals (by decide)
  unfold declarator
  rw [bind_of_ok (dimensions_of_not hrest hbracket)]
  unfold whenAccepted
  constructor
  · intro hok
    obtain ⟨found, m, hfound, hok⟩ := bind_eq_ok.1 hok
    rw [bind_of_ok (accept_of_is hrest hequals), if_pos rfl] at hfound
    obtain ⟨e, m', he, hfound⟩ := bind_eq_ok.1 hfound
    obtain ⟨rfl, rfl⟩ := pure_eq_ok.1 hfound
    obtain ⟨span, k, hspan, hok⟩ := bind_eq_ok.1 hok
    cases hspan
    obtain ⟨rfl, rfl⟩ := pure_eq_ok.1 hok
    exact ⟨e, he, rfl⟩
  · rintro ⟨e, he, rfl⟩
    rw [bind_of_ok (a := some e) (m := n) ?_]
    · rfl
    · rw [bind_of_ok (accept_of_is hrest hequals), if_pos rfl, bind_of_ok he]
      rfl

/-- In front of anything but a comma the first variable is the only one. -/
theorem declarators_single (name : String) {e : Expression} (hrest : s.rest = equals :: ts)
    (hequals : equals.is "=" = true)
    (he : expressionUntil [",", ";"] setting s.advance = .ok e n) (hn : n.sees "," = false) :
    ∃ v, declarators name setting s = .ok [v] n ∧ v.name = name ∧ v.initializer = some e := by
  have haccept : accept "," setting n = .ok false n := by
    simp only [accept, hn, if_neg Bool.false_ne_true]
  refine ⟨{ name, initializer := some e
            span := n.spanFrom ((s.last.map (·.span.start)).getD {}) }, ?_, rfl, rfl⟩
  unfold declarators
  rw [bind_of_ok (show state setting s = .ok s s from rfl),
    bind_of_ok ((declarator_eq_ok hrest hequals).2 ⟨e, he, rfl⟩),
    bind_of_ok (gather_of_stop (n := n) (by rw [bind_of_ok haccept]; rfl))]
  rfl

/-- In front of a comma it is not. -/
theorem declarators_several {found : List VariableDecl} (hrest : s.rest = equals :: ts)
    (hequals : equals.is "=" = true)
    (hcomma : ∀ {e m}, expressionUntil [",", ";"] setting s.advance = .ok e m →
      m.sees "," = true)
    (hok : declarators name setting s = .ok found n) :
    ∃ v w more, found = v :: w :: more ∧ v.name = name := by
  unfold declarators at hok
  rw [bind_of_ok (show state setting s = .ok s s from rfl)] at hok
  obtain ⟨v, m, hfirst, hok⟩ := bind_eq_ok.1 hok
  obtain ⟨others, k, hothers, hok⟩ := bind_eq_ok.1 hok
  obtain ⟨rfl, rfl⟩ := pure_eq_ok.1 hok
  obtain ⟨e, he, rfl⟩ := (declarator_eq_ok hrest hequals).1 hfirst
  have haccept : accept "," setting m = .ok true m.advance := by
    simp only [accept, hcomma he, if_true]
  have hmore : ∃ w more, others = w :: more := by
    refine gather_of_take (fun hturn => ?_) hothers
    rw [bind_of_ok haccept] at hturn
    obtain ⟨start, _, -, hturn⟩ := bind_eq_ok.1 hturn
    obtain ⟨_, _, -, hturn⟩ := bind_eq_ok.1 hturn
    obtain ⟨w, _, -, hturn⟩ := bind_eq_ok.1 hturn
    exact ⟨w, (pure_eq_ok.1 hturn).1.symm⟩
  obtain ⟨w, more, rfl⟩ := hmore
  exact ⟨_, w, more, rfl, rfl⟩

end

/-! ### Where an expression stands -/

/-- The tokens are ahead, and behind them this keyword or operator. -/
def Parser.State.AheadUntil (s : State) (tokens : List Token) (stop : String) : Prop :=
  ∃ t ts, s.rest = tokens ++ t :: ts ∧ t.is stop = true

/-- A variable of this name is ahead, with the tokens for its initializer and a semicolon. -/
def Parser.State.AtVariable (s : State) (name : String) (tokens : List Token) : Prop :=
  ∃ word equals, word.isIdentifier = true ∧ word.text = name ∧ equals.is "=" = true ∧
    s.AheadUntil (word :: equals :: tokens) ";"

/-- A constant of this name is ahead, with the tokens in parentheses. -/
def Parser.State.AtConstant (s : State) (name : String) (tokens : List Token) : Prop :=
  ∃ word opening, word.isIdentifier = true ∧ word.text = name ∧ opening.is "(" = true ∧
    s.AheadUntil (word :: opening :: tokens) ")"

/-- Where brackets nest, no closing bracket stands outside of them all. -/
theorem not_closer_outside {tokens : List Token} {closer : String} (h : WellBracketed tokens)
    (hcloser : closer ∈ [")", "]", "\x7d"]) :
    ∀ t, Outside 0 t tokens → t.is closer = false := fun _ ht =>
  Bool.eq_false_iff.2 (List.any_eq_false.1 ((wellBracketed_iff.1 h).not_closes ht) closer hcloser)

section

variable {setting : Setting} {s n : State} {first : Token} {others : List Token} {stop : String}

/-- Up to the token that ends it an expression is captured whole if no comma stands outside of its
brackets, and then that token is ahead. -/
theorem capture_of_noComma (setting : Setting) (hbrackets : WellBracketed (first :: others))
    (hends : ∀ t, Outside 0 t (first :: others) → t.is stop = false)
    (hcommas : NoCommaOutside (first :: others)) (hahead : s.AheadUntil (first :: others) stop) :
    expressionUntil [",", stop] setting s =
        .ok (.ofTokens first others) (s.skip (first :: others).length) ∧
      (s.skip (first :: others).length).sees stop = true := by
  obtain ⟨t, ts, hrest, ht⟩ := hahead
  have hstops : ∀ u, Outside 0 u (first :: others) → u.isAny [",", stop] = false := by
    intro u hu
    simp [Token.isAny, hcommas u hu, hends u hu]
  have hafter : expressionLength [",", stop] 0 (t :: ts) = 0 := by
    simp [expressionLength, Token.isAny, ht]
  refine ⟨expressionUntil_whole hbrackets hstops hrest hafter, ?_⟩
  rw [State.sees_cons (State.rest_skip hrest), ht]

/-- Otherwise it is cut off in front of a comma. -/
theorem capture_of_comma (hbrackets : WellBracketed (first :: others))
    (hends : ∀ t, Outside 0 t (first :: others) → t.is stop = false)
    (hcommas : ¬ NoCommaOutside (first :: others)) (hahead : s.AheadUntil (first :: others) stop)
    {e : Expression} (hok : expressionUntil [",", stop] setting s = .ok e n) :
    n.sees "," = true ∧ n.index < s.index + (first :: others).length := by
  obtain ⟨_, _, hrest, -⟩ := hahead
  obtain ⟨u, hu⟩ := Classical.not_forall.1 hcommas
  obtain ⟨hu, hcomma⟩ := Classical.not_imp.1 hu
  have hstop : u.isAny [",", stop] = true := by
    simp [Token.isAny, (Bool.not_eq_false _).mp hcomma]
  obtain ⟨t, ts, ht, hany, hn, hindex⟩ := expressionUntil_cut hbrackets hu hstop hrest hok
  refine ⟨?_, hindex⟩
  rw [State.sees_cons hn]
  simpa [Token.isAny, hends t ht] using hany

/-- **The variables of a declaration**: one with the whole initializer, if no comma stands outside of
its brackets. -/
theorem declarators_of_noComma (setting : Setting) (name : String) {equals : Token}
    (hbrackets : WellBracketed (first :: others))
    (hends : ∀ t, Outside 0 t (first :: others) → t.is ";" = false)
    (hcommas : NoCommaOutside (first :: others)) (hequals : equals.is "=" = true)
    (hahead : s.AheadUntil (equals :: first :: others) ";") :
    ∃ v n, declarators name setting s = .ok [v] n ∧ v.name = name ∧
      v.initializer = some (.ofTokens first others) ∧ n.sees ";" = true := by
  obtain ⟨t, ts, hrest, ht⟩ := hahead
  obtain ⟨hcapture, hsees⟩ := capture_of_noComma setting hbrackets hends hcommas
    ⟨t, ts, State.rest_advance hrest, ht⟩
  obtain ⟨u, us, hu, his⟩ := State.exists_cons_of_sees hsees
  have hcomma : (s.advance.skip (first :: others).length).sees "," = false := by
    rw [State.sees_cons hu]
    exact Token.is_of_is his (by decide)
  obtain ⟨v, hv, hname, hinitializer⟩ := declarators_single name hrest hequals hcapture
    hcomma
  exact ⟨v, _, hv, hname, hinitializer, hsees⟩

/-- Otherwise there are several. -/
theorem declarators_of_comma {name : String} {equals : Token} {found : List VariableDecl}
    (hbrackets : WellBracketed (first :: others))
    (hends : ∀ t, Outside 0 t (first :: others) → t.is ";" = false)
    (hcommas : ¬ NoCommaOutside (first :: others)) (hequals : equals.is "=" = true)
    (hahead : s.AheadUntil (equals :: first :: others) ";")
    (hok : declarators name setting s = .ok found n) :
    ∃ v w more, found = v :: w :: more ∧ v.name = name := by
  obtain ⟨t, ts, hrest, ht⟩ := hahead
  refine declarators_several hrest hequals (fun he => ?_) hok
  exact (capture_of_comma hbrackets hends hcommas ⟨t, ts, State.rest_advance hrest, ht⟩ he).1

end

/-! ### Fields, local variables and constants -/

section

variable {setting : Setting} {s m n : State} {first : Token} {others : List Token}
  {name typeName : String}

/-- **A field has one variable with the whole initializer**, exactly if no comma stands outside of the
brackets. -/
theorem typedMember_whole_iff (sub : Nested) (words : List String) (parameters : Option String)
    (start : Position) (hbrackets : WellBracketed (first :: others))
    (hends : ∀ t, Outside 0 t (first :: others) → t.is ";" = false)
    (htype : typeReference setting s = .ok typeName m) (hm : m.AtVariable name (first :: others)) :
    (∃ field v next, typedMember sub words parameters start setting s = .ok (.field field) next ∧
      field.declarators = [v] ∧ v.name = name ∧ v.initializer = some (.ofTokens first others)) ↔
      NoCommaOutside (first :: others) := by
  obtain ⟨word, equals, hword, rfl, hequals, t, ts, hrest, ht⟩ := hm
  have hadvance : m.advance.rest = equals :: first :: others ++ t :: ts := State.rest_advance hrest
  have hahead : m.advance.AheadUntil (equals :: first :: others) ";" := ⟨t, ts, hadvance, ht⟩
  have hparenthesis : sees "(" setting m.advance = .ok false m.advance := by
    show Answer.ok (m.advance.sees "(") _ = _
    rw [State.sees_cons hadvance, Token.is_of_is hequals (by decide)]
  unfold typedMember
  rw [bind_of_ok htype, bind_of_ok (identifier_of_is hrest hword), bind_of_ok hparenthesis,
    if_neg Bool.false_ne_true]
  constructor
  · rintro ⟨field, v, next, hok, hsingle, -, -⟩
    refine Classical.byContradiction fun hcommas => ?_
    obtain ⟨found, k, hfound, hok⟩ := bind_eq_ok.1 hok
    obtain ⟨v', w, more, rfl, -⟩ :=
      declarators_of_comma hbrackets hends hcommas hequals hahead hfound
    obtain ⟨_, _, -, hok⟩ := bind_eq_ok.1 hok
    obtain ⟨_, _, -, hok⟩ := bind_eq_ok.1 hok
    obtain ⟨hfield, -⟩ := pure_eq_ok.1 hok
    cases hfield
    simp at hsingle
  · intro hcommas
    obtain ⟨v, k, hv, hname, hinitializer, hsees⟩ :=
      declarators_of_noComma setting word.text hbrackets hends hcommas hequals hahead
    obtain ⟨u, us, hu, his⟩ := State.exists_cons_of_sees hsees
    rw [bind_of_ok hv, bind_of_ok (expect_of_is hu his)]
    exact ⟨_, v, _, rfl, rfl, hname, hinitializer⟩

/-- Two names with a comma between them are longer than the first one. -/
theorem intercalate_ne (a b : String) (more : List String) :
    ",".intercalate (a :: b :: more) ≠ a := by
  intro h
  have hlength := congrArg String.length h
  rw [String.intercalate_cons_cons, String.length_append, String.length_append] at hlength
  have hcomma : ",".length = 1 := rfl
  omega

/-- **A declaration of local variables has one**, exactly if no comma stands outside of the
brackets. -/
theorem localVariables_whole_iff (start : Position) (hbrackets : WellBracketed (first :: others))
    (hends : ∀ t, Outside 0 t (first :: others) → t.is ";" = false)
    (htype : typeReference setting s = .ok typeName m) (hm : m.AtVariable name (first :: others)) :
    (∃ statement next, localVariables start setting s = .ok statement next ∧
      statement.label = some name ∧ statement.expressions = [.ofTokens first others]) ↔
      NoCommaOutside (first :: others) := by
  obtain ⟨word, equals, hword, rfl, hequals, t, ts, hrest, ht⟩ := hm
  have hahead : m.advance.AheadUntil (equals :: first :: others) ";" :=
    ⟨t, ts, State.rest_advance hrest, ht⟩
  unfold localVariables
  rw [bind_of_ok htype, bind_of_ok (identifier_of_is hrest hword)]
  constructor
  · rintro ⟨statement, next, hok, hlabel, -⟩
    refine Classical.byContradiction fun hcommas => ?_
    obtain ⟨found, k, hfound, hok⟩ := bind_eq_ok.1 hok
    obtain ⟨v, w, more, rfl, hname⟩ :=
      declarators_of_comma hbrackets hends hcommas hequals hahead hfound
    obtain ⟨_, _, -, hok⟩ := bind_eq_ok.1 hok
    obtain ⟨_, _, -, hok⟩ := bind_eq_ok.1 hok
    obtain ⟨rfl, -⟩ := pure_eq_ok.1 hok
    rw [List.map_cons, List.map_cons, hname] at hlabel
    exact intercalate_ne _ _ _ (Option.some.inj hlabel)
  · intro hcommas
    obtain ⟨v, k, hv, hname, hinitializer, hsees⟩ :=
      declarators_of_noComma setting word.text hbrackets hends hcommas hequals hahead
    obtain ⟨u, us, hu, his⟩ := State.exists_cons_of_sees hsees
    rw [bind_of_ok hv, bind_of_ok (expect_of_is hu his)]
    refine ⟨_, _, rfl, ?_, ?_⟩
    · simp only [List.map_cons, List.map_nil, String.intercalate_singleton, hname]
    · simp [hinitializer]

/-- The arguments of an invocation are read between its parentheses. -/
theorem arguments_eq_ok {opening t : Token} {ts : List Token} {found : List Expression}
    (hrest : s.rest = opening :: t :: ts) (hopening : opening.is "(" = true)
    (ht : t.is ")" = false) :
    arguments setting s = .ok found n ↔
      ∃ k span, commaSeparated (expressionUntil [",", ")"]) setting s.advance = .ok found k ∧
        expect ")" setting k = .ok span n := by
  unfold arguments
  rw [bind_of_ok (expect_of_is hrest hopening),
    bind_of_ok (accept_of_not (State.rest_advance hrest) ht), if_neg Bool.false_ne_true]
  constructor
  · intro hok
    obtain ⟨found, k, hfound, hok⟩ := bind_eq_ok.1 hok
    obtain ⟨span, k', hspan, hok⟩ := bind_eq_ok.1 hok
    obtain ⟨rfl, rfl⟩ := pure_eq_ok.1 hok
    exact ⟨k, span, hfound, hspan⟩
  · rintro ⟨k, span, hfound, hspan⟩
    rw [bind_of_ok hfound, bind_of_ok hspan]
    rfl

/-- The class body of a constant never fails: what is wrong in it is reported. -/
theorem constantBody_answers (sub : Nested) (name : String) (setting : Setting) (s : State) :
    ∃ body n, constantBody sub name setting s = .ok body n := by
  have hmembers : Answers (members sub name) := by
    unfold members
    infer_instance
  unfold constantBody
  rw [bind_of_ok (show here setting s = .ok (setting.here s) s from rfl),
    bind_of_ok (show sees "\x7b" setting s = .ok (s.sees "\x7b") s from rfl)]
  split
  · rename_i hsees
    obtain ⟨t, ts, hrest, his⟩ := State.exists_cons_of_sees hsees
    have hbody : ∃ found n, classBody sub name setting s = .ok found n := by
      unfold classBody
      rw [bind_of_ok (expect_of_is hrest his)]
      exact Answers.answers setting s.advance
    obtain ⟨found, n, hbody⟩ := hbody
    rw [bind_of_ok hbody]
    exact Answers.answers setting n
  · exact ⟨_, _, rfl⟩

/-- A constant has the arguments that are read behind its name. -/
theorem enumConstant_eq_ok (sub : Nested) {word opening : Token} {ts : List Token}
    {found : List Expression} (hrest : s.rest = word :: opening :: ts)
    (hword : word.isIdentifier = true) (hopening : opening.is "(" = true) :
    (∃ constant next, enumConstant sub setting s = .ok (.enumConstant constant) next ∧
      constant.name = word.text ∧ constant.arguments = found) ↔
      ∃ k, arguments setting s.advance = .ok found k := by
  have hsees : sees "(" setting s.advance = .ok true s.advance := by
    show Answer.ok (s.advance.sees "(") _ = _
    rw [State.sees_cons (State.rest_advance hrest), hopening]
  unfold enumConstant constantArguments
  rw [bind_of_ok (show here setting s = .ok (setting.here s) s from rfl),
    bind_of_ok (identifier_of_is hrest hword)]
  constructor
  · rintro ⟨constant, next, hok, -, rfl⟩
    obtain ⟨found, k, hfound, hok⟩ := bind_eq_ok.1 hok
    obtain ⟨_, _, -, hok⟩ := bind_eq_ok.1 hok
    obtain ⟨_, _, -, hok⟩ := bind_eq_ok.1 hok
    obtain ⟨hconstant, -⟩ := pure_eq_ok.1 hok
    cases hconstant
    rw [bind_of_ok hsees, if_pos rfl] at hfound
    exact ⟨k, hfound⟩
  · rintro ⟨k, hfound⟩
    obtain ⟨body, n, hbody⟩ := constantBody_answers sub word.text setting k
    rw [bind_of_ok ((bind_of_ok hsees).trans hfound), bind_of_ok hbody]
    exact ⟨_, _, rfl, rfl, rfl⟩

/-- Between parentheses the whole is the one argument, if no comma stands outside of its brackets. -/
theorem arguments_of_noComma {opening : Token} (hbrackets : WellBracketed (first :: others))
    (hcommas : NoCommaOutside (first :: others)) (hopening : opening.is "(" = true)
    (hahead : s.AheadUntil (opening :: first :: others) ")") :
    ∃ k, arguments setting s = .ok [.ofTokens first others] k := by
  obtain ⟨t, ts, hrest, ht⟩ := hahead
  have hends := not_closer_outside hbrackets (by decide : ")" ∈ [")", "]", "\x7d"])
  have hfirst : first.is ")" = false := hends first (outside_cons.2 (.inl ⟨rfl, rfl⟩))
  obtain ⟨hcapture, hsees⟩ := capture_of_noComma setting hbrackets hends hcommas
    ⟨t, ts, State.rest_advance hrest, ht⟩
  obtain ⟨u, us, hu, his⟩ := State.exists_cons_of_sees hsees
  have hcomma : (s.advance.skip (first :: others).length).sees "," = false := by
    rw [State.sees_cons hu]
    exact Token.is_of_is his (by decide)
  exact ⟨_, (arguments_eq_ok hrest hopening hfirst).2
    ⟨_, _, commaSeparated_single hcapture hcomma, expect_of_is hu his⟩⟩

/-- Otherwise there are several arguments. -/
theorem arguments_of_comma {opening : Token} {found : List Expression}
    (hbrackets : WellBracketed (first :: others)) (hcommas : ¬ NoCommaOutside (first :: others))
    (hopening : opening.is "(" = true) (hahead : s.AheadUntil (opening :: first :: others) ")")
    (hok : arguments setting s = .ok found n) : ∃ a b more, found = a :: b :: more := by
  obtain ⟨t, ts, hrest, ht⟩ := hahead
  have hends := not_closer_outside hbrackets (by decide : ")" ∈ [")", "]", "\x7d"])
  have hfirst : first.is ")" = false := hends first (outside_cons.2 (.inl ⟨rfl, rfl⟩))
  obtain ⟨k, span, hfound, -⟩ := (arguments_eq_ok hrest hopening hfirst).1 hok
  refine commaSeparated_several (fun he => ?_) hfound
  exact (capture_of_comma hbrackets hends hcommas ⟨t, ts, State.rest_advance hrest, ht⟩ he).1

/-- **A constant has one argument, and it is the whole**, exactly if no comma stands outside of the
brackets. -/
theorem enumConstant_whole_iff (sub : Nested) (hbrackets : WellBracketed (first :: others))
    (hs : s.AtConstant name (first :: others)) :
    ((∃ constant next, enumConstant sub setting s = .ok (.enumConstant constant) next ∧
      constant.name = name ∧ constant.arguments = [.ofTokens first others]) ↔
        NoCommaOutside (first :: others)) ∧
    ((∃ constant next, enumConstant sub setting s = .ok (.enumConstant constant) next ∧
      constant.name = name ∧ constant.arguments.length = 1) ↔
        NoCommaOutside (first :: others)) := by
  obtain ⟨word, opening, hword, rfl, hopening, t, ts, hrest, ht⟩ := hs
  have hahead : s.advance.AheadUntil (opening :: first :: others) ")" :=
    ⟨t, ts, State.rest_advance hrest, ht⟩
  have hwhole (hcommas : NoCommaOutside (first :: others)) :
      ∃ constant next, enumConstant sub setting s = .ok (.enumConstant constant) next ∧
        constant.name = word.text ∧ constant.arguments = [.ofTokens first others] :=
    (enumConstant_eq_ok sub hrest hword hopening).2
      (arguments_of_noComma hbrackets hcommas hopening hahead)
  have hsingle {constant : EnumConstant} {next : State}
      (hok : enumConstant sub setting s = .ok (.enumConstant constant) next)
      (hname : constant.name = word.text) (hone : constant.arguments.length = 1) :
      NoCommaOutside (first :: others) := by
    refine Classical.byContradiction fun hcommas => ?_
    obtain ⟨k, hk⟩ := (enumConstant_eq_ok sub hrest hword hopening).1 ⟨constant, next, hok, hname, rfl⟩
    obtain ⟨a, b, more, hmore⟩ := arguments_of_comma hbrackets hcommas hopening hahead hk
    simp [hmore] at hone
  constructor
  · refine ⟨fun ⟨constant, next, hok, hname, hwhole⟩ => hsingle hok hname ?_, hwhole⟩
    rw [hwhole, List.length_singleton]
  · refine ⟨fun ⟨constant, next, hok, hname, hone⟩ => hsingle hok hname hone, fun hcommas => ?_⟩
    obtain ⟨constant, next, hok, hname, harguments⟩ := hwhole hcommas
    exact ⟨constant, next, hok, hname, by rw [harguments, List.length_singleton]⟩

end

/-! ### The main theorem -/

/-- **An expression is captured whole exactly if no comma stands outside of its brackets**, given that
its brackets nest and that its commas and semicolons all stand in brackets or in type arguments: up to
a semicolon, as the initializer of the one variable of a field or of a local declaration, and as the
one argument of an enum constant.  So a comma between two type arguments cuts it off. -/
theorem captured_whole_iff {first : Token} {others : List Token}
    (hbrackets : WellBracketed (first :: others)) (henclosed : Enclosed (first :: others)) :
    (∀ (setting : Setting) (s : State), s.AheadUntil (first :: others) ";" →
      (expressionUntil [",", ";"] setting s =
          .ok (.ofTokens first others) (s.skip (first :: others).length) ↔
        NoCommaOutside (first :: others))) ∧
    (∀ (sub : Nested) (words : List String) (parameters : Option String) (start : Position)
        (setting : Setting) (s m : State) (typeName name : String),
      typeReference setting s = .ok typeName m → m.AtVariable name (first :: others) →
      ((∃ field v next, typedMember sub words parameters start setting s =
          .ok (.field field) next ∧ field.declarators = [v] ∧ v.name = name ∧
            v.initializer = some (.ofTokens first others)) ↔
        NoCommaOutside (first :: others))) ∧
    (∀ (start : Position) (setting : Setting) (s m : State) (typeName name : String),
      typeReference setting s = .ok typeName m → m.AtVariable name (first :: others) →
      ((∃ statement next, localVariables start setting s = .ok statement next ∧
          statement.label = some name ∧ statement.expressions = [.ofTokens first others]) ↔
        NoCommaOutside (first :: others))) ∧
    (∀ (sub : Nested) (setting : Setting) (s : State) (name : String),
      s.AtConstant name (first :: others) →
      ((∃ constant next, enumConstant sub setting s = .ok (.enumConstant constant) next ∧
          constant.name = name ∧ constant.arguments = [.ofTokens first others]) ↔
        NoCommaOutside (first :: others)) ∧
      ((∃ constant next, enumConstant sub setting s = .ok (.enumConstant constant) next ∧
          constant.name = name ∧ constant.arguments.length = 1) ↔
        NoCommaOutside (first :: others))) := by
  have hends : ∀ t, Outside 0 t (first :: others) → t.is ";" = false :=
    fun t ht => henclosed.not_semicolon ht
  refine ⟨fun setting s hahead => ?_, fun sub words parameters start setting s m typeName name =>
    typedMember_whole_iff sub words parameters start hbrackets hends,
    fun start setting s m typeName name => localVariables_whole_iff start hbrackets hends,
    fun sub setting s name => enumConstant_whole_iff sub hbrackets⟩
  refine ⟨fun hok => Classical.byContradiction fun hcommas => ?_,
    fun hcommas => (capture_of_noComma setting hbrackets hends hcommas hahead).1⟩
  obtain ⟨-, hindex⟩ := capture_of_comma hbrackets hends hcommas hahead hok
  obtain ⟨t, ts, hrest, -⟩ := hahead
  rw [State.index_skip (by rw [hrest, List.length_append]; exact Nat.le_add_right _ _)] at hindex
  exact Nat.lt_irrefl _ hindex

/-- An invocation with two arguments is captured whole, and its commas stand in parentheses. -/
theorem captured_whole_invocation :
    ∃ first others, (Scan.ofText "f(a, b)").tokens = first :: others ∧
      WellBracketed (first :: others) ∧ Enclosed (first :: others) ∧
      ∀ setting s, s.AheadUntil (first :: others) ";" →
        expressionUntil [",", ";"] setting s = .ok (.ofTokens first others) (s.skip 6) := by
  have hlength : (Scan.ofText "f(a, b)").tokens.length = 6 := by decide +kernel
  have hbrackets : WellBracketed (Scan.ofText "f(a, b)").tokens := by decide +kernel
  have henclosed : Enclosed (Scan.ofText "f(a, b)").tokens := by decide +kernel
  have hcommas : NoCommaOutside (Scan.ofText "f(a, b)").tokens := by decide +kernel
  cases htokens : (Scan.ofText "f(a, b)").tokens with
  | nil =>
      rw [htokens] at hlength
      cases hlength
  | cons first others =>
      rw [htokens] at hlength hbrackets henclosed hcommas
      refine ⟨first, others, rfl, hbrackets, henclosed, fun setting s hs => ?_⟩
      rw [← hlength]
      exact ((captured_whole_iff hbrackets henclosed).1 setting s hs).2 hcommas

/-- A comma between two type arguments is enclosed and cuts the expression off: the declaration does
not parse, and the constant has two arguments. -/
theorem typeArguments_cut :
    let field := "class A \x7b T x = new H<S, I>(); \x7d"
    let constant := "enum E \x7b A(new H<S, I>()) \x7d"
    let initializer := ((Scan.ofText field).tokens.drop 6).take 9
    let argument := ((Scan.ofText constant).tokens.drop 5).take 9
    (WellBracketed initializer ∧ Enclosed initializer ∧
      (Outline.parse field false).errors.map SyntaxError.message =
        ["Syntax error: expected ';', found '>'"]) ∧
    (WellBracketed argument ∧ Enclosed argument ∧
      (Outline.parse constant false).outline.expressions.map Expression.text =
        ["new H<S", "I>()"]) := by
  decide +kernel

end JavaOutline
