/-
**Expressions by position.**

The sort and the text of an expression are found here a second time, by position: each token is looked
up at its index, a slice is cut out between two indices, and counters are counted down.  Whatever could
go wrong with that is checked, and ends in a fault: an index or a slice that is out of range, a counter
that would fall below zero, and a loop that does not end.  For an expression that has a token nothing
goes wrong, and the result is that of the functions which know no indices.

Main definitions:

* `Fault`, `Checked` — what can go wrong, and results that come with a check;
* `Checked.item`, `Checked.part`, `Checked.minus` — checked lookups, slices and differences;
* `Checked.topLevel`, `Checked.kindOf`, `Checked.textOf` — the top level, the sort and the text;
* `Checked.expressionOf` — the expression that some tokens are.

Main results:

* `Checked.topLevel_eq` — the indices at the top level are those of the top-level tokens;
* `Checked.kindOf_eq` — **the sort of an expression is found without a fault**;
* `Checked.expressionOf_eq` — **so is the expression**.
-/

import JavaOutline.Outline.Phrase

set_option autoImplicit false

namespace JavaOutline

/-! ### Checks -/

/-- What can go wrong with an access by position. -/
inductive Fault where
  /-- An index is out of range. -/
  | index
  /-- A slice begins behind its end or ends behind the list. -/
  | slice
  /-- A number would fall below zero. -/
  | underflow
  /-- A loop or a recursion does not end in the number of turns that it was given. -/
  | endless
deriving DecidableEq, Repr, Inhabited

/-- A result, or what went wrong on the way. -/
abbrev Checked : Type → Type := Except Fault

namespace Checked

variable {α β : Type}

/-- The element at an index. -/
def item (xs : List α) (i : Nat) : Checked α :=
  match xs[i]? with
  | some x => .ok x
  | none => .error .index

/-- The elements from an index up to another one. -/
def part (xs : List α) (i j : Nat) : Checked (List α) :=
  if i ≤ j ∧ j ≤ xs.length then .ok ((xs.take j).drop i) else .error .slice

/-- The difference of two numbers. -/
def minus (a b : Nat) : Checked Nat :=
  if b ≤ a then .ok (a - b) else .error .underflow

@[simp] theorem ok_bind (a : α) (f : α → Checked β) :
    (Except.ok a >>= f : Checked β) = f a := rfl

@[simp] theorem pure_eq_ok (a : α) : (pure a : Checked α) = .ok a := rfl

theorem item_ok {xs : List α} {i : Nat} {x : α} (h : xs[i]? = some x) : item xs i = .ok x := by
  rw [item, h]

theorem part_ok {xs : List α} {i j : Nat} (hij : i ≤ j) (hj : j ≤ xs.length) :
    part xs i j = .ok ((xs.take j).drop i) := if_pos ⟨hij, hj⟩

theorem minus_ok {a b : Nat} (h : b ≤ a) : minus a b = .ok (a - b) := if_pos h

/-- A test of each element that never goes wrong. -/
theorem anyM_ok {test : β → Checked Bool} {pass : α → Bool} {place : α → β} {xs : List α}
    (h : ∀ x ∈ xs, test (place x) = .ok (pass x)) :
    (xs.map place).anyM test = .ok (xs.any pass) := by
  induction xs with
  | nil => rfl
  | cons x xs ih =>
      rw [List.map_cons, List.anyM_cons, h x List.mem_cons_self, ok_bind, List.any_cons]
      cases pass x with
      | true => rfl
      | false => exact ih fun y hy => h y (List.mem_cons_of_mem x hy)

/-- A search by a test that never goes wrong. -/
theorem findM?_ok {test : β → Checked Bool} {pass : α → Bool} {place : α → β} {xs : List α}
    (h : ∀ x ∈ xs, test (place x) = .ok (pass x)) :
    (xs.map place).findM? test = .ok ((xs.find? pass).map place) := by
  induction xs with
  | nil => rfl
  | cons x xs ih =>
      rw [List.map_cons, List.findM?, h x List.mem_cons_self, ok_bind, List.find?_cons]
      cases pass x with
      | true => rfl
      | false => exact ih fun y hy => h y (List.mem_cons_of_mem x hy)

/-! ### The top level -/

/-- The index at which a list of type arguments ends, if the tokens are one; the first token has index
`i`, and `depth` lists are open before it. -/
def typeArgumentsEnd? (i depth : Nat) : List Token → Checked (Option Nat)
  | [] => return none
  | t :: ts =>
      if t.is "<" then typeArgumentsEnd? (i + 1) (depth + 1) ts
      else if t.is ">" then do
        let depth ← minus depth 1
        if depth = 0 then return some i else typeArgumentsEnd? (i + 1) depth ts
      else if isTypeArgumentPart t then typeArgumentsEnd? (i + 1) depth ts
      else return none

/-- The indices of the tokens at the top level from index `i` on, `depth` brackets being open. -/
def topLevelLoop (tokens : List Token) : Nat → Nat → Nat → Checked (List Nat)
  | 0, _, _ => .error .endless
  | fuel + 1, i, depth =>
      if i < tokens.length then do
        let t ← item tokens i
        if t.opens then
          let later ← topLevelLoop tokens fuel (i + 1) (depth + 1)
          return if depth = 0 then i :: later else later
        else if t.closes then
          let later ← topLevelLoop tokens fuel (i + 1) (depth - 1)
          return if depth - 1 = 0 then i :: later else later
        else if depth = 0 then
          let stop? ← if t.is "<" then typeArgumentsEnd? i 0 (tokens.drop i) else pure none
          match stop? with
          | some stop => topLevelLoop tokens fuel (stop + 1) 0
          | none =>
              let later ← topLevelLoop tokens fuel (i + 1) 0
              return i :: later
        else topLevelLoop tokens fuel (i + 1) depth
      else return []

/-- The indices of the tokens at the top level.  One turn for each token and one more are enough. -/
def topLevel (tokens : List Token) : Checked (List Nat) :=
  topLevelLoop tokens (tokens.length + 1) 0 0

/-- In an open list of type arguments no counter falls below zero. -/
theorem typeArgumentsEnd?_eq (i : Nat) {depth : Nat} (hdepth : 0 < depth) (tokens : List Token) :
    typeArgumentsEnd? i depth tokens =
      .ok ((typeArgumentsLength? depth tokens).map fun n => i + n - 1) := by
  induction tokens generalizing i depth with
  | nil => rfl
  | cons t ts ih =>
      have hmap {depth : Nat} (hdepth : 0 < depth) :
          typeArgumentsEnd? (i + 1) depth ts =
            .ok (((typeArgumentsLength? depth ts).map (· + 1)).map fun n => i + n - 1) := by
        rw [ih (i + 1) hdepth, Option.map_map]
        congr 2
        funext n
        simp only [Function.comp_apply]
        omega
      rw [typeArgumentsEnd?, typeArgumentsLength?]
      split
      · exact hmap (Nat.succ_pos depth)
      · split
        · rw [minus_ok hdepth, ok_bind]
          by_cases hone : depth ≤ 1
          · have hzero : depth - 1 = 0 := by omega
            rw [if_pos hzero, if_pos hone]
            rfl
          · rw [if_neg (by omega), if_neg hone]
            exact hmap (by omega)
        · split
          · exact hmap hdepth
          · rfl

/-- A list of type arguments takes a token. -/
theorem typeArgumentsLength?_pos {depth n : Nat} {tokens : List Token}
    (h : typeArgumentsLength? depth tokens = some n) : 0 < n ∧ n ≤ tokens.length := by
  induction tokens generalizing depth n with
  | nil => cases h
  | cons t ts ih =>
      have hmap {depth : Nat} (h : (typeArgumentsLength? depth ts).map (· + 1) = some n) :
          0 < n ∧ n ≤ (t :: ts).length := by
        obtain ⟨m, hm, rfl⟩ := Option.map_eq_some_iff.1 h
        have hle := (ih hm).2
        rw [List.length_cons]
        omega
      rw [typeArgumentsLength?] at h
      split at h
      · exact hmap h
      · split at h
        · split at h
          · cases h
            exact ⟨Nat.one_pos, Nat.succ_le_succ (Nat.zero_le _)⟩
          · exact hmap h
        · split at h
          · exact hmap h
          · cases h

/-- The tokens that belong to a list of type arguments are passed over. -/
theorem index_topLevelFrom_skip (i depth : Nat) (tokens : List Token) (skip : Nat)
    (previous other : Option Token) (h : skip ≤ tokens.length) :
    (topLevelFrom i depth skip previous tokens).map TopToken.index =
      (topLevelFrom (i + skip) depth 0 other (tokens.drop skip)).map TopToken.index := by
  induction tokens generalizing i depth skip previous other with
  | nil =>
      obtain rfl : skip = 0 := Nat.le_zero.1 h
      rfl
  | cons t ts ih =>
      cases skip with
      | succ skip =>
          have hcount : i + (skip + 1) = i + 1 + skip := by omega
          rw [topLevelFrom, ih _ _ _ _ other (Nat.le_of_succ_le_succ h), hcount, List.drop_succ_cons]
      | zero =>
          rw [Nat.add_zero, List.drop_zero, topLevelFrom, topLevelFrom]
          split
          · split <;> rfl
          · split
            · split <;> rfl
            · split
              · split <;> rfl
              · rfl

/-- The loop over the top level finds the indices of the top-level tokens. -/
theorem topLevelLoop_eq (tokens : List Token) {fuel : Nat} (i depth : Nat)
    (previous : Option Token) (h : tokens.length - i < fuel) :
    topLevelLoop tokens fuel i depth =
      .ok ((topLevelFrom i depth 0 previous (tokens.drop i)).map TopToken.index) := by
  induction fuel generalizing i depth previous with
  | zero => omega
  | succ fuel ih =>
      rw [topLevelLoop]
      by_cases hi : i < tokens.length
      · have hitem := List.getElem?_eq_getElem hi
        rw [if_pos hi, item_ok hitem, ok_bind, List.drop_eq_getElem_cons hi, topLevelFrom]
        generalize tokens[i] = t
        have hnext (depth : Nat) := ih (i + 1) depth (some t) (by omega)
        split
        · rw [hnext, ok_bind, pure_eq_ok]
          split <;> rfl
        · split
          · rw [hnext, ok_bind, pure_eq_ok]
            by_cases hone : depth ≤ 1
            · rw [if_pos (by omega), if_pos hone]
              rfl
            · rw [if_neg (by omega), if_neg hone]
          · split
            · split
              next hangle =>
                -- The list is open behind its first token, so what follows counts from one.
                have hfirst : typeArgumentsEnd? i 0 (t :: tokens.drop (i + 1)) =
                    .ok ((typeArgumentsLength? 0 (t :: tokens.drop (i + 1))).map
                      fun n => i + n - 1) := by
                  rw [typeArgumentsEnd?, if_pos hangle, typeArgumentsLength?, if_pos hangle,
                    typeArgumentsEnd?_eq _ Nat.one_pos, Option.map_map]
                  congr 2
                  funext n
                  simp only [Function.comp_apply]
                  omega
                rw [hfirst, ok_bind]
                cases hlength : typeArgumentsLength? 0 (t :: tokens.drop (i + 1)) with
                | none =>
                    rw [Option.map_none, hnext, ok_bind]
                    rfl
                | some n =>
                    obtain ⟨hpos, hle⟩ := typeArgumentsLength?_pos hlength
                    rw [List.length_cons, List.length_drop] at hle
                    have hstop : i + n - 1 + 1 = i + 1 + (n - 1) := by omega
                    simp only [Option.map_some]
                    rw [hstop, ih _ _ none (by omega), ← List.drop_drop,
                      index_topLevelFrom_skip (i + 1) 0 _ (n - 1) (some t) none
                        (by rw [List.length_drop]; omega)]
              next =>
                rw [pure_eq_ok, ok_bind, hnext, ok_bind]
                rfl
            · exact hnext depth
      · rw [if_neg hi, List.drop_eq_nil_of_le (by omega)]
        rfl

/-- **The indices at the top level are found without a fault.** -/
theorem topLevel_eq (tokens : List Token) :
    topLevel tokens = .ok ((JavaOutline.topLevel tokens).map TopToken.index) :=
  topLevelLoop_eq tokens 0 0 none (by omega)

/-- The token in front of an index, if there is one. -/
def before? (tokens : List Token) (i : Nat) : Option Token :=
  if i = 0 then none else tokens[i - 1]?

/-- Top-level tokens stand at their indices, and those before them in front. -/
theorem stands_topLevelFrom {tokens : List Token} (rest : List Token) {i : Nat} (depth skip : Nat)
    (h : tokens.drop i = rest) :
    ∀ top ∈ topLevelFrom i depth skip (before? tokens i) rest,
      tokens[top.index]? = some top.token ∧ top.previous = before? tokens top.index := by
  induction rest generalizing i depth skip with
  | nil => exact nofun
  | cons t ts ih =>
      have hitem : tokens[i]? = some t := by
        rw [← List.head?_drop, h]
        rfl
      have hbefore : before? tokens (i + 1) = some t := hitem
      have hrest : tokens.drop (i + 1) = ts := by
        rw [← List.drop_drop, h]
        rfl
      have hlater (depth skip : Nat) := ih depth skip hrest
      rw [hbefore] at hlater
      have hcons {tops : List TopToken} (htops : ∀ top ∈ tops,
            tokens[top.index]? = some top.token ∧ top.previous = before? tokens top.index) :
          ∀ top ∈ (⟨i, before? tokens i, t⟩ :: tops : List TopToken),
            tokens[top.index]? = some top.token ∧ top.previous = before? tokens top.index := by
        intro top htop
        rcases List.mem_cons.1 htop with rfl | htop
        · exact ⟨hitem, rfl⟩
        · exact htops top htop
      cases skip with
      | succ skip => exact hlater depth skip
      | zero =>
          rw [topLevelFrom]
          split
          · dsimp only
            split
            · exact hcons (hlater _ _)
            · exact hlater _ _
          · split
            · dsimp only
              split
              · exact hcons (hlater _ _)
              · exact hlater _ _
            · split
              · split
                · exact hlater _ _
                · exact hcons (hlater _ _)
              · exact hlater _ _

/-! ### The sort -/

/-- Whether some token at the given indices passes a test. -/
def anyAt (tokens : List Token) (tops : List Nat) (test : Token → Bool) : Checked Bool :=
  tops.anyM fun i => do
    let t ← item tokens i
    return test t

/-- Whether the token at an index assigns. -/
def assignsAt (tokens : List Token) (i : Nat) : Checked Bool := do
  let t ← item tokens i
  if t.is ">=" && 0 < i then
    let front ← minus i 1
    let before ← item tokens front
    return t.isAny assignmentOperators ||
      (before.is ">" && before.span.stop.offset == t.span.start.offset)
  else return t.isAny assignmentOperators

/-- Whether an operator at place `place` of the top level is a sign in front of an operand. -/
def isSign (tokens : List Token) (tops : List Nat) (place : Nat) : Checked Bool := do
  if place = 0 then return true
  else
    let front ← minus place 1
    match tops[front]? with
    | some i =>
        let before ← item tokens i
        return before.awaitsOperand
    | none => return false

/-- Whether some operator joins two operands, from place `place` of the top level on. -/
def joinsAt (tokens : List Token) (tops : List Nat) (place : Nat) : List Nat → Checked Bool
  | [] => return false
  | i :: later => do
      let t ← item tokens i
      if t.isAny binaryOperators then
        let sign ← isSign tokens tops place
        if sign then joinsAt tokens tops (place + 1) later else return true
      else joinsAt tokens tops (place + 1) later

/-- The sort of an expression that begins with a parenthesis, if the parenthesis decides it. -/
def parenthesisKind? (tokens : List Token) (tops : List Nat) : Checked (Option Expression.Kind) := do
  let close? ← tops.findM? fun i => do
    if 0 < i then
      let t ← item tokens i
      return t.is ")"
    else return false
  match close? with
  | none => return none
  | some close =>
      let last ← minus tokens.length 1
      if close = last then return some .parenthesized
      else
        let inner ← part tokens 1 close
        if looksLikeCast inner (tokens[close + 1]?) then return some .cast else return none

/-- The sort of an expression that no operator decides, by its last tokens. -/
def endingKind (tokens : List Token) (last : Token) : Checked Expression.Kind := do
  if last.is ")" then return .methodInvocation
  else if tokens.all fun t => t.isIdentifier || t.isAny [".", "this", "super"] then return .name
  else if last.isIdentifier && 2 ≤ tokens.length then
    let front ← minus tokens.length 2
    let before ← item tokens front
    return if before.is "." then .fieldAccess else .other
  else return .other

/-- The sort of an expression that begins with neither `new` nor a parenthesis that decides it. -/
def plainKind (tokens : List Token) (first last : Token) : Checked Expression.Kind :=
  if first.isAny unaryOperators || last.isAny ["++", "--"] then return .unary
  else if tokens.length = 1 then return singleTokenKind first
  else endingKind tokens last

/-- The sort of an expression that no operator at its top level decides. -/
def operandKind (tokens : List Token) (tops : List Nat) (first last : Token) :
    Checked Expression.Kind := do
  if first.is "new" then
    let array ← anyAt tokens tops (·.is "[")
    let call ← anyAt tokens tops (·.is "(")
    return if array && !call then .arrayCreation else .objectCreation
  else
    let decided ← if first.is "(" then parenthesisKind? tokens tops else pure none
    match decided with
    | some kind => return kind
    | none => plainKind tokens first last

/-- The sort of the expression that some tokens are. -/
def kindOf (tokens : List Token) : Checked Expression.Kind := do
  let tops ← topLevel tokens
  let first ← item tokens 0
  let back ← minus tokens.length 1
  let last ← item tokens back
  let lambda ← anyAt tokens tops (·.is "->")
  if lambda then return .lambda
  else
    let assigns ← tops.anyM (assignsAt tokens)
    if assigns then return .assignment
    else
      let asks ← anyAt tokens tops (·.is "?")
      if asks then return .conditional
      else
        let joins ← joinsAt tokens tops 0 tops
        if joins then return .binary else operandKind tokens tops first last

section

variable {tokens : List Token} {tops : List TopToken}
  (htops : ∀ top ∈ tops, tokens[top.index]? = some top.token ∧
    top.previous = before? tokens top.index)

include htops

theorem anyAt_eq (test : Token → Bool) :
    anyAt tokens (tops.map TopToken.index) test = .ok (tops.any fun top => test top.token) := by
  refine anyM_ok fun top htop => ?_
  rw [item_ok (htops top htop).1, ok_bind, pure_eq_ok]

theorem assignsAt_eq :
    (tops.map TopToken.index).anyM (assignsAt tokens) = .ok (tops.any TopToken.assigns) := by
  refine anyM_ok fun top htop => ?_
  obtain ⟨hitem, hprevious⟩ := htops top htop
  rw [assignsAt, item_ok hitem, ok_bind, TopToken.assigns, hprevious, before?]
  by_cases hzero : top.index = 0
  · simp [hzero]
  · have hlt := (List.getElem?_eq_some_iff.1 hitem).1
    have hfront : tokens[top.index - 1]? = some tokens[top.index - 1] :=
      List.getElem?_eq_getElem (by omega)
    rw [if_neg hzero, hfront, minus_ok (by omega), ok_bind, item_ok hfront, ok_bind]
    cases top.token.is ">=" with
    | true => simp [Nat.pos_of_ne_zero hzero]
    | false => simp

/-- An operator is a sign if it is the first one or awaits an operand in front. -/
theorem isSign_eq (place : Nat) (h : place ≤ tops.length) :
    isSign tokens (tops.map TopToken.index) place =
      .ok (!(if place = 0 then none else (tops[place - 1]?).map TopToken.token).any
        fun t => !t.awaitsOperand) := by
  rw [isSign]
  by_cases hzero : place = 0
  · simp [hzero]
  · have hfront : tops[place - 1]? = some tops[place - 1] := List.getElem?_eq_getElem (by omega)
    rw [if_neg hzero, minus_ok (by omega), ok_bind, List.getElem?_map, hfront, Option.map_some]
    simp [item_ok (htops _ (List.mem_of_getElem? hfront)).1, hzero]

theorem joinsAt_eq (place : Nat) :
    joinsAt tokens (tops.map TopToken.index) place ((tops.drop place).map TopToken.index) =
      .ok (hasBinaryOperator
        (if place = 0 then none else (tops[place - 1]?).map TopToken.token) (tops.drop place)) := by
  generalize hlater : tops.drop place = later
  induction later generalizing place with
  | nil => rfl
  | cons top later ih =>
      have hplace : tops[place]? = some top := by
        rw [← List.head?_drop, hlater]
        rfl
      have hle := Nat.le_of_lt (List.getElem?_eq_some_iff.1 hplace).1
      have hnext := ih (place + 1) (by rw [← List.drop_drop, hlater]; rfl)
      rw [if_neg (Nat.succ_ne_zero place), Nat.add_sub_cancel, hplace, Option.map_some] at hnext
      rw [List.map_cons, joinsAt, item_ok (htops _ (List.mem_of_getElem? hplace)).1, ok_bind,
        hasBinaryOperator, isSign_eq htops place hle, ok_bind, hnext]
      generalize (if place = 0 then none else (tops[place - 1]?).map TopToken.token) = before
      cases top.token.isAny binaryOperators with
      | false => simp
      | true => cases before.any fun b => !b.awaitsOperand <;> simp

theorem parenthesisKind?_eq :
    parenthesisKind? tokens (tops.map TopToken.index) =
      .ok (JavaOutline.parenthesisKind? tokens tops) := by
  have hfind : (tops.map TopToken.index).findM? (fun i => do
        if 0 < i then
          let t ← item tokens i
          return t.is ")"
        else return false) =
      .ok ((tops.find? fun top => 0 < top.index && top.token.is ")").map TopToken.index) := by
    refine findM?_ok fun top htop => ?_
    by_cases hzero : 0 < top.index
    · simp [hzero, item_ok (htops top htop).1]
    · simp [hzero]
  rw [parenthesisKind?, hfind, ok_bind, JavaOutline.parenthesisKind?]
  cases hclose : tops.find? fun top => 0 < top.index && top.token.is ")" with
  | none => rfl
  | some close =>
      have hlt := (List.getElem?_eq_some_iff.1 (htops _ (List.mem_of_find?_eq_some hclose)).1).1
      have hpos : 0 < close.index := by
        have hpass := List.find?_some hclose
        simp only [Bool.and_eq_true, decide_eq_true_eq] at hpass
        exact hpass.1
      simp only [Option.map_some]
      rw [minus_ok (by omega), ok_bind]
      by_cases hlast : close.index + 1 = tokens.length
      · rw [if_pos (by omega), if_pos hlast, pure_eq_ok]
      · rw [if_neg (by omega), if_neg hlast, part_ok hpos (Nat.le_of_lt hlt), ok_bind]
        split <;> rfl

end

theorem minus_length (first : Token) (rest : List Token) :
    minus (first :: rest).length 1 = .ok ((first :: rest).length - 1) :=
  minus_ok (Nat.succ_le_succ (Nat.zero_le _))

/-- The last token of an expression. -/
theorem getElem?_last (first : Token) (rest : List Token) :
    (first :: rest)[(first :: rest).length - 1]? = some (rest.getLastD first) := by
  rw [← List.getLast?_eq_getElem?, List.getLast?_cons, List.getLastD_eq_getLast?]

theorem endingKind_eq (first : Token) (rest : List Token) :
    endingKind (first :: rest) (rest.getLastD first) =
      .ok (JavaOutline.endingKind (first :: rest)) := by
  have hlast := getElem?_last first rest
  generalize rest.getLastD first = last at hlast ⊢
  generalize first :: rest = tokens at hlast ⊢
  -- The list read from its end begins with the last token.
  obtain ⟨front, rfl⟩ : ∃ front, tokens = front ++ [last] := by
    rw [← List.getLast?_eq_getElem?] at hlast
    obtain ⟨front, hfront⟩ := List.getLast?_eq_some_iff.1 hlast
    exact ⟨front, hfront⟩
  rw [endingKind, JavaOutline.endingKind, List.reverse_append, List.reverse_singleton,
    List.singleton_append]
  dsimp only
  split
  · rfl
  · split
    · rfl
    · rw [List.head?_reverse]
      rcases List.eq_nil_or_concat front with rfl | ⟨front, before, hfront⟩
      · simp
      · rw [List.concat_eq_append] at hfront
        subst hfront
        have hlength : (front ++ [before] ++ [last]).length = front.length + 2 := by simp
        have hbefore : (front ++ [before] ++ [last])[front.length]? = some before := by simp
        rw [hlength, minus_ok (by omega), ok_bind, Nat.add_sub_cancel, item_ok hbefore, ok_bind,
          List.getLast?_concat]
        cases last.isIdentifier with
        | false => simp
        | true => cases hpoint : before.is "." <;> simp [hpoint]

theorem plainKind_eq (first : Token) (rest : List Token) :
    plainKind (first :: rest) first (rest.getLastD first) =
      .ok (if first.isAny unaryOperators || (rest.getLastD first).isAny ["++", "--"] then .unary
        else if rest.isEmpty then singleTokenKind first
        else JavaOutline.endingKind (first :: rest)) := by
  rw [plainKind, endingKind_eq]
  split
  · rfl
  · cases rest <;> rfl

/-- **The sort of an expression that has a token is found without a fault.** -/
theorem kindOf_eq (first : Token) (rest : List Token) :
    kindOf (first :: rest) = .ok (Expression.Kind.ofTokens first rest) := by
  have htops := stands_topLevelFrom (first :: rest) 0 0 (List.drop_zero (l := first :: rest))
  change ∀ top ∈ JavaOutline.topLevel (first :: rest), _ at htops
  have hjoins := joinsAt_eq htops 0
  rw [List.drop_zero, if_pos rfl] at hjoins
  have hfirst : (first :: rest)[0]? = some first := rfl
  simp only [kindOf, topLevel_eq, ok_bind, item_ok hfirst, minus_length,
    item_ok (getElem?_last first rest), anyAt_eq htops, assignsAt_eq htops, hjoins,
    Expression.Kind.ofTokens]
  split
  · rfl
  split
  · rfl
  split
  · rfl
  split
  · rfl
  rw [operandKind]
  split
  · simp only [anyAt_eq htops, ok_bind, pure_eq_ok]
  · split
    · rw [parenthesisKind?_eq htops, ok_bind]
      cases JavaOutline.parenthesisKind? (first :: rest) (JavaOutline.topLevel (first :: rest)) with
      | some kind => rfl
      | none => exact plainKind_eq first rest
    · exact plainKind_eq first rest

/-! ### The text -/

/-- The blank in front of the token at index `i`, if the source has a gap there. -/
def gapAt (tokens : List Token) (i : Nat) (t : Token) : Checked String := do
  if 0 < i then
    let front ← minus i 1
    let before ← item tokens front
    return if before.span.stop.offset < t.span.start.offset then " " else ""
  else return ""

/-- The text of the tokens from index `i` on, with a blank where the source has a gap. -/
def textFrom (tokens : List Token) (i : Nat) : List Token → Checked String
  | [] => return ""
  | t :: later => do
      let blank ← gapAt tokens i t
      let behind ← textFrom tokens (i + 1) later
      return blank ++ t.text ++ behind

/-- The text of some tokens. -/
def textOf (tokens : List Token) : Checked String := textFrom tokens 0 tokens

theorem textFrom_eq {tokens : List Token} (later : List Token) {i : Nat} {before : Token}
    (hbefore : tokens[i]? = some before) (h : tokens.drop (i + 1) = later) :
    textFrom tokens (i + 1) later = .ok (Token.joinFrom before.span.stop.offset later) := by
  induction later generalizing i before with
  | nil => rfl
  | cons t later ih =>
      have hitem : tokens[i + 1]? = some t := by
        rw [← List.head?_drop, h]
        rfl
      have hlater := ih hitem (by rw [← List.drop_drop, h]; rfl)
      rw [textFrom, gapAt, if_pos (Nat.succ_pos i), minus_ok (by omega), ok_bind, Nat.add_sub_cancel,
        item_ok hbefore, ok_bind, pure_eq_ok, ok_bind, hlater, ok_bind]
      rfl

/-- **The text of some tokens is found without a fault.** -/
theorem textOf_eq (tokens : List Token) : textOf tokens = .ok (Token.join tokens) := by
  cases tokens with
  | nil => rfl
  | cons t later =>
      have hfirst : (t :: later)[0]? = some t := rfl
      rw [textOf, textFrom, gapAt, if_neg (Nat.lt_irrefl 0), pure_eq_ok, ok_bind,
        textFrom_eq later hfirst rfl, ok_bind, Token.join]
      simp

/-! ### The expression -/

/-- The expression that some tokens are. -/
def expressionOf (tokens : List Token) : Checked Expression := do
  let kind ← kindOf tokens
  let text ← textOf tokens
  let first ← item tokens 0
  let back ← minus tokens.length 1
  let last ← item tokens back
  return { kind, text, span := ⟨first.span.start, last.span.stop⟩ }

/-- **The expression that some tokens are is found without a fault.** -/
theorem expressionOf_eq (first : Token) (rest : List Token) :
    expressionOf (first :: rest) = .ok (Expression.ofTokens first rest) := by
  have hfirst : (first :: rest)[0]? = some first := rfl
  rw [expressionOf, kindOf_eq, ok_bind, textOf_eq, ok_bind, item_ok hfirst, ok_bind,
    minus_length, ok_bind, item_ok (getElem?_last first rest), ok_bind]
  rfl

end Checked

end JavaOutline
