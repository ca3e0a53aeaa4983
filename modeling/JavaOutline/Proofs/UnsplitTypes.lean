/-
**Types that no comma splits.**

A type is written with names, points, square brackets, type arguments and annotations.  A comma in it
stands in the type arguments or in the arguments of an annotation.  It may end with a point, but only in
front of the sign of an annotation type, so it is not cut off between two points.

Main definitions:

* `Token.IsPlain` — a token that begins no group and is neither a comma nor a point;
* `Parser.State.PassesUnsplit` — what lies between two states has no comma outside of its groups.

Main results:

* `qualifiedName_passesUnsplit`, `annotations_passesUnsplit`, `dimensions_passesUnsplit`,
  `typeSuffixes_passesUnsplit` — the parts of a type;
* `typeReference_eq_ok` — **a type is written with tokens that no comma splits**.
-/

import JavaOutline.Proofs.PairedReading
import JavaOutline.Proofs.SeparatedTexts

set_option autoImplicit false

namespace JavaOutline

open JavaOutline.Parser

/-! ### What lies between two states -/

/-- From one state to another tokens are passed of which no comma stands outside of their groups, and
which are not cut off between two points. -/
def Parser.State.PassesUnsplit (s n : State) : Prop :=
  ∃ part, s.rest = part ++ n.rest ∧ Unsplit part ∧ CutPlain part n.rest

/-- A token that begins no group and is neither a comma nor a point. -/
structure Token.IsPlain (t : Token) : Prop where
  group : t.group? = none
  comma : t.is "," = false
  point : t.is "." = false

theorem Token.IsPlain.of_isIdentifier {t : Token} (h : t.isIdentifier = true) : t.IsPlain := by
  have hkind : t.kind = .identifier := beq_iff_eq.1 h
  have hnot (text : String) : t.is text = false := by simp [Token.is, hkind]
  exact ⟨by simp [Token.group?, hnot], hnot _, hnot _⟩

theorem Token.IsPlain.of_is {t : Token} {text : String} (h : t.is text = true)
    (htext : text ∉ ["<", "(", ",", "."]) : t.IsPlain := by
  have hnot {other : String} (hother : other ∈ ["<", "(", ",", "."]) : t.is other = false :=
    Token.is_of_is h fun heq => htext (heq ▸ hother)
  exact ⟨by simp [Token.group?, hnot (by decide : "<" ∈ _), hnot (by decide : "(" ∈ _)],
    hnot (by decide), hnot (by decide)⟩

theorem Token.IsPlain.of_isTypeStart {t : Token} (h : t.isTypeStart = true) : t.IsPlain := by
  rcases Bool.or_eq_true_iff.1 h with hname | hword
  · exact .of_isIdentifier hname
  · obtain ⟨hkind, htext⟩ := Bool.and_eq_true_iff.1 hword
    have his : t.is t.text = true := by simp [Token.is, beq_iff_eq.1 hkind]
    have hwords : ∀ text ∈ primitiveTypes, text ∉ ["<", "(", ",", "."] := by decide
    exact .of_is his (hwords t.text (List.contains_iff_mem.1 htext))

theorem Token.group?_angle {t : Token} (h : t.is "<" = true) : t.group? = some ("<", ">") := if_pos h

theorem Token.group?_parenthesis {t : Token} (h : t.is "(" = true) : t.group? = some ("(", ")") := by
  rw [Token.group?, Token.is_of_is h (by decide : "<" ≠ "("), if_neg Bool.false_ne_true, if_pos h]

theorem CutPlain.append {front back after : List Token} (h : CutPlain front (back ++ after))
    (h' : CutPlain back after) : CutPlain (front ++ back) after := by
  cases back with
  | nil => simpa using h
  | cons t back => exact h'.imp id fun hlast u hu => hlast u (by simpa using hu)

/-- A group ends with its closer. -/
theorem Group.getLast?_is {opener closer : String} {group : List Token} (h : Group opener closer group)
    {t : Token} (ht : group.getLast? = some t) : t.is closer = true := by
  cases group with
  | nil => cases h
  | cons first ts =>
      obtain ⟨-, hlength⟩ := h
      obtain ⟨n, hn⟩ : ∃ n, ts.length = n + 1 :=
        Nat.exists_eq_succ_of_ne_zero (Nat.ne_of_gt (groupLength?_pos hlength).1)
      rw [hn] at hlength
      obtain ⟨last, hlast, his⟩ := groupLength?_closer hlength
      rw [List.getLast?_cons, List.getLast?_eq_getElem?, hn, Nat.add_sub_cancel, hlast] at ht
      obtain rfl := Option.some.inj ht
      exact his

namespace Parser.State

variable {s m n : State}

namespace PassesUnsplit

theorem refl (s : State) : s.PassesUnsplit s := ⟨[], rfl, .nil, .inr nofun⟩

theorem trans (h : s.PassesUnsplit m) (h' : m.PassesUnsplit n) : s.PassesUnsplit n := by
  obtain ⟨front, hfront, hunsplit, hcut⟩ := h
  obtain ⟨back, hback, hunsplit', hcut'⟩ := h'
  rw [hback] at hfront hcut
  exact ⟨front ++ back, by rw [hfront, List.append_assoc], hunsplit.append hunsplit',
    hcut.append hcut'⟩

/-- A plain token is passed. -/
theorem advance {t : Token} {ts : List Token} (hrest : s.rest = t :: ts) (ht : t.IsPlain) :
    s.PassesUnsplit s.advance := by
  refine ⟨[t], by rw [State.rest_advance hrest, hrest]; rfl, .plain ht.group ht.comma .nil,
    .inr fun u hu => ?_⟩
  obtain rfl := Option.some.inj hu
  exact ht.point

/-- A point and more are passed; if there is no more, something else than a point follows. -/
theorem point {t : Token} {ts : List Token} (hrest : s.rest = t :: ts) (ht : t.is "." = true)
    (h : s.advance.PassesUnsplit n) (hmore : n.rest = ts → EndsPlain ts) : s.PassesUnsplit n := by
  obtain ⟨part, hpart, hunsplit, hcut⟩ := h
  rw [State.rest_advance hrest] at hpart
  have hgroup : t.group? = none := by
    simp [Token.group?, Token.is_of_is ht (by decide : "<" ≠ "."),
      Token.is_of_is ht (by decide : "(" ≠ ".")]
  refine ⟨t :: part, by rw [hrest, hpart]; rfl,
    .plain hgroup (Token.is_of_is ht (by decide)) hunsplit, ?_⟩
  cases part with
  | nil =>
      rw [List.nil_append] at hpart
      exact .inl (hpart ▸ hmore hpart.symm)
  | cons u part => exact hcut.imp id fun hlast v hv => hlast v (by simpa using hv)

/-- A point and a name are passed. -/
theorem pointName {t u : Token} {ts : List Token} (hrest : s.rest = t :: u :: ts)
    (ht : t.is "." = true) (hu : u.isIdentifier = true) : s.PassesUnsplit s.advance.advance := by
  have hname := State.rest_advance hrest
  refine .point hrest ht (.advance hname (.of_isIdentifier hu)) fun h => ?_
  rw [State.rest_advance hname] at h
  exact absurd h.symm (List.cons_ne_self u ts)

/-- A group is passed. -/
theorem bracketed {opener closer : String} {setting : Setting} {span : Span}
    (hpair : ∀ t : Token, t.is opener = true → t.group? = some (opener, closer))
    (hcloser : "." ≠ closer) (hsees : s.sees opener = true)
    (hok : Parser.bracketed opener closer setting s = .ok span n) : s.PassesUnsplit n := by
  obtain ⟨-, group, hrest, -, hgroup⟩ := group_of_bracketed hsees hok
  exact ⟨group, hrest, .of_group hpair hgroup, .inr fun t ht =>
    Token.is_of_is (hgroup.getLast?_is ht) hcloser⟩

end PassesUnsplit

end Parser.State

/-! ### Types -/

open JavaOutline.Parser.State (PassesUnsplit)

section

variable {setting : Setting} {s n : State}

/-- A dotted name. -/
theorem qualifiedName_passesUnsplit {name : String} (hok : qualifiedName setting s = .ok name n) :
    s.PassesUnsplit n := by
  have hname {m m' : State} {word : String} (hword : identifier setting m = .ok word m') :
      m.PassesUnsplit m' := by
    obtain ⟨hsees, rfl⟩ := name_of_identifier hword
    obtain ⟨t, ts, hrest, ht⟩ := State.exists_cons_of_seesIdentifier hsees
    exact .advance hrest (.of_isIdentifier ht)
  obtain ⟨first, m, hfirst, hok⟩ := bind_eq_ok.1 hok
  obtain ⟨others, m', hothers, hok⟩ := bind_eq_ok.1 hok
  obtain ⟨-, rfl⟩ := pure_eq_ok.1 hok
  refine gather_keeps s.PassesUnsplit (fun {m value m'} hm hturn => ?_) (hname hfirst) hothers
  obtain ⟨_, _, hstate, hturn⟩ := bind_eq_ok.1 hturn
  cases hstate
  split at hturn
  next hsees =>
    obtain ⟨hpoint, hsecond⟩ := Bool.and_eq_true_iff.1 hsees
    obtain ⟨t, u, ts, hrest, hu⟩ := State.exists_second hsecond
    rw [State.sees_cons hrest] at hpoint
    obtain ⟨_, _, hadvance, hturn⟩ := bind_eq_ok.1 hturn
    cases hadvance
    obtain ⟨word, m'', hword, hturn⟩ := bind_eq_ok.1 hturn
    obtain ⟨-, rfl⟩ := pure_eq_ok.1 hturn
    obtain ⟨-, rfl⟩ := name_of_identifier hword
    exact hm.trans (.pointName hrest hpoint hu)
  next =>
    obtain ⟨-, rfl⟩ := pure_eq_ok.1 hturn
    exact hm

/-- Annotations. -/
theorem annotations_passesUnsplit (hok : annotations setting s = .ok () n) : s.PassesUnsplit n := by
  refine repeatWhile_keeps s.PassesUnsplit (fun {m more m'} hm hturn => hm.trans ?_) (.refl s) hok
  obtain ⟨_, _, hstate, hturn⟩ := bind_eq_ok.1 hturn
  cases hstate
  split at hturn
  next hsees =>
    obtain ⟨sign, ts, hrest, hsign⟩ := State.exists_cons_of_sees (Bool.and_eq_true_iff.1 hsees).1
    obtain ⟨_, _, hadvance, hturn⟩ := bind_eq_ok.1 hturn
    cases hadvance
    obtain ⟨name, k, hname, hturn⟩ := bind_eq_ok.1 hturn
    obtain ⟨_, _, hparenthesis, hturn⟩ := bind_eq_ok.1 hturn
    cases hparenthesis
    have hk := (PassesUnsplit.advance hrest (.of_is hsign (by decide))).trans
      (qualifiedName_passesUnsplit hname)
    dsimp only at hturn
    split at hturn
    next hgroup =>
      obtain ⟨span, k', hspan, hturn⟩ := bind_eq_ok.1 hturn
      obtain ⟨-, rfl⟩ := pure_eq_ok.1 hturn
      exact hk.trans (.bracketed (fun t ht => Token.group?_parenthesis ht) (by decide) hgroup hspan)
    next =>
      obtain ⟨-, rfl⟩ := pure_eq_ok.1 hturn
      exact hk
  next =>
    obtain ⟨-, rfl⟩ := pure_eq_ok.1 hturn
    exact .refl m

/-- Pairs of square brackets. -/
theorem dimensions_passesUnsplit (hok : dimensions setting s = .ok () n) : s.PassesUnsplit n := by
  refine repeatWhile_keeps s.PassesUnsplit (fun {m more m'} hm hturn => hm.trans ?_) (.refl s) hok
  obtain ⟨_, _, hstate, hturn⟩ := bind_eq_ok.1 hturn
  cases hstate
  split at hturn
  next hsees =>
    obtain ⟨t, u, ts, hrest, ht, hu⟩ := State.exists_pair hsees
    obtain ⟨_, _, hskip, hturn⟩ := bind_eq_ok.1 hturn
    cases hskip
    obtain ⟨-, rfl⟩ := pure_eq_ok.1 hturn
    exact (PassesUnsplit.advance hrest (.of_is ht (by decide))).trans
      (.advance (State.rest_advance hrest) (.of_is hu (by decide)))
  next =>
    obtain ⟨-, rfl⟩ := pure_eq_ok.1 hturn
    exact .refl m

/-- Type arguments and the further parts of a qualified type. -/
theorem typeSuffixes_passesUnsplit (hok : typeSuffixes setting s = .ok () n) : s.PassesUnsplit n := by
  refine repeatWhile_keeps s.PassesUnsplit (fun {m more m'} hm hturn => hm.trans ?_) (.refl s) hok
  obtain ⟨_, _, hstate, hturn⟩ := bind_eq_ok.1 hturn
  cases hstate
  split at hturn
  next hsees =>
    obtain ⟨span, k, hspan, hturn⟩ := bind_eq_ok.1 hturn
    obtain ⟨-, rfl⟩ := pure_eq_ok.1 hturn
    exact .bracketed (fun t ht => Token.group?_angle ht) (by decide) hsees hspan
  split at hturn
  next hsees =>
    obtain ⟨hpoint, hsecond⟩ := Bool.and_eq_true_iff.1 hsees
    obtain ⟨t, u, ts, hrest, hu⟩ := State.exists_second hsecond
    rw [State.sees_cons hrest] at hpoint
    obtain ⟨_, _, hskip, hturn⟩ := bind_eq_ok.1 hturn
    cases hskip
    obtain ⟨-, rfl⟩ := pure_eq_ok.1 hturn
    exact .pointName hrest hpoint hu
  split at hturn
  next hsees =>
    obtain ⟨t, u, ts, hrest, ht, hu⟩ := State.exists_pair hsees
    obtain ⟨_, _, hadvance, hturn⟩ := bind_eq_ok.1 hturn
    cases hadvance
    obtain ⟨_, k, hannotations, hturn⟩ := bind_eq_ok.1 hturn
    obtain ⟨-, rfl⟩ := pure_eq_ok.1 hturn
    refine .point hrest ht (annotations_passesUnsplit hannotations) fun _ v hv => ?_
    obtain rfl := Option.some.inj hv
    rw [Token.text_of_is hu]
    decide
  next =>
    obtain ⟨-, rfl⟩ := pure_eq_ok.1 hturn
    exact .refl m

/-- What is read since an earlier state are the tokens that lie between. -/
theorem tokensSince_of_reaches {part : List Token} (h : s.Reaches n) (hrest : s.rest = part ++ n.rest) :
    n.tokensSince s = part := by
  obtain ⟨passed, hpassed, hindex, -⟩ := h
  obtain rfl : part = passed := List.append_cancel_right (hrest.symm.trans hpassed)
  rw [State.tokensSince, hindex, Nat.add_sub_cancel_left, hpassed, List.take_left]

/-- **A type is written with tokens that no comma splits.** -/
theorem typeReference_eq_ok {text : String} (hok : typeReference setting s = .ok text n) :
    ∃ front part, s.rest = front ++ (part ++ n.rest) ∧ part ≠ [] ∧ Unsplit part ∧
      CutPlain part n.rest ∧ text = Token.join part := by
  obtain ⟨_, start, hannotations, hok⟩ := bind_eq_ok.1 hok
  obtain ⟨_, _, hstate, hok⟩ := bind_eq_ok.1 hok
  cases hstate
  split at hok
  next hfirst =>
    obtain ⟨_, _, hadvance, hok⟩ := bind_eq_ok.1 hok
    cases hadvance
    obtain ⟨_, m, hsuffixes, hok⟩ := bind_eq_ok.1 hok
    obtain ⟨_, m', hdimensions, hok⟩ := bind_eq_ok.1 hok
    obtain ⟨_, _, hstate, hok⟩ := bind_eq_ok.1 hok
    cases hstate
    obtain ⟨rfl, rfl⟩ := pure_eq_ok.1 hok
    obtain ⟨front, hfront, -, -⟩ := (Moves.of_ok hannotations).reaches
    obtain ⟨t, ts, hrest, ht⟩ : ∃ t ts, start.rest = t :: ts ∧ t.IsPlain := by
      rcases Bool.or_eq_true_iff.1 hfirst with htype | hwildcard
      · obtain ⟨t, hhead, ht⟩ := (Option.any_eq_true _ _).1 htype
        obtain ⟨ts, hrest⟩ := List.head?_eq_some_iff.1 hhead
        exact ⟨t, ts, hrest, .of_isTypeStart ht⟩
      · obtain ⟨t, ts, hrest, ht⟩ := State.exists_cons_of_sees hwildcard
        exact ⟨t, ts, hrest, .of_is ht (by decide)⟩
    have hbehind := (typeSuffixes_passesUnsplit hsuffixes).trans (dimensions_passesUnsplit hdimensions)
    obtain ⟨part, hpart, hunsplit, hcut⟩ := (PassesUnsplit.advance hrest ht).trans hbehind
    have hgoes := ((State.goes_advance start).trans (Moves.of_ok hsuffixes)).trans
      (Moves.of_ok hdimensions)
    refine ⟨front, part, by rw [hfront, hpart], ?_, hunsplit, hcut,
      by rw [tokensSince_of_reaches hgoes.reaches hpart]⟩
    rintro rfl
    obtain ⟨more, hmore, -⟩ := hbehind
    rw [State.rest_advance hrest] at hmore
    have hlength := congrArg List.length hpart
    rw [hrest, hmore, List.nil_append, List.length_cons, List.length_append] at hlength
    omega
  next => cases hok

end

end JavaOutline
