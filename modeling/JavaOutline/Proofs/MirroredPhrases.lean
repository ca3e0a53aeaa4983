/-
**Phrases that mirror.**

Names, modifiers, types, expressions and variables are read by position as the parsers read them.  The
bracket groups among them are passed over only behind their opener, the texts are cut out between two
places on the way, and the variables of a declaration are read behind a name, so the token just behind
is there.

Main results:

* `annotations_mirrors`, `modifiers_mirrors` — what stands in front of a declaration;
* `typeReference_mirrors`, `typeParameters_mirrors` — **texts are cut out within the list**;
* `declarators_mirrorsAt` — **the first variable began at a token of the list**.
-/

import JavaOutline.Proofs.MirroredTurns
import JavaOutline.Proofs.PositionGrammar

set_option autoImplicit false
set_option synthInstance.maxSize 100000

namespace JavaOutline

open JavaOutline.Parser

/-! ### Words that are ahead -/

namespace Parser.State

variable {s : State}

/-- A modifier is a token that is ahead. -/
theorem rest_ne_nil_of_modifier? {word : String} (h : s.modifier? = some word) : s.rest ≠ [] := by
  intro hrest
  simp [modifier?, hrest] at h

/-- The modifier `sealed` or `non-sealed` takes tokens that are ahead. -/
theorem rest_ne_nil_of_sealedLength? {n : Nat} (h : s.sealedLength? = some n) :
    s.rest ≠ [] ∧ 0 < n := by
  unfold sealedLength? at h
  split at h
  next t next rest hrest =>
    refine ⟨by simp [hrest], ?_⟩
    split at h
    · split at h <;> cases h
      exact Nat.one_pos
    · split at h
      · split at h <;> cases h
        exact Nat.succ_pos _
      · cases h
  next => cases h

end Parser.State

section

variable {c : Walk.Course} {s : State} {low : Nat}

/-! ### Names, annotations and modifiers -/

theorem qualifiedName_mirrors : Mirrors c low Walk.qualifiedName qualifiedName := by
  refine .bind identifier_mirrors fun _ =>
    .bind (.gather (.window fun s hs hd => ?_) ?_) fun _ => .pure _
  · refine .ite (by simp) (fun _ => ?_) fun _ => .pure _
    exact (advance_mirrors.bind fun _ => identifier_mirrors.bind fun _ => .pure _) s hs hd
  · exact .pass fun _ => .ite (.of_advances _) (.other id)

theorem annotations_mirrors : Mirrors c low Walk.annotations annotations := by
  refine .repeatWhile (.window fun s hs hd => ?_) ?_
  · refine .ite (by simp) (fun _ => ?_) fun _ => .pure _
    refine (advance_mirrors.bind fun _ => qualifiedName_mirrors.bind fun _ => ?_) s hs hd
    exact .ifSees (fun s hs _ hsees => (skipBalanced_mirrors rfl hs hsees).go fun _ _ _ _ => .pure _)
      (.pure _)
  · exact .pass fun _ => .ite (.of_advances _) (.other Bool.false_ne_true)

/-- An annotation that is ahead is passed. -/
theorem annotations_productiveAt {sort : Unit → Prop} (h : s.seesAnnotation = true) :
    ProductiveAt sort s annotations :=
  .repeatWhile (.state (.ite (fun _ => .of_advances _) fun hno => absurd h hno))

theorem modifiers_mirrors : Mirrors c low Walk.modifiers modifiers := by
  refine @Mirrors.gather _ c low _ _ (@moves_bind _ _ _ _ inferInstance fun s => ?_)
    (.window fun s hs hd => ?_) (.state fun s => ?_)
  · split <;> infer_instance
  · simp only [State.window_modifier?, State.window_sealedLength?]
    cases s.modifier? with
    | some word => exact (advance_mirrors.bind fun _ => .pure _) s hs hd
    | none =>
        cases s.sealedLength? with
        | some n => exact ((skip_mirrors n).bind fun _ => .pure _) s hs hd
        | none =>
            refine .ite (by simp) (fun _ => ?_) fun _ => .pure _
            exact (annotations_mirrors.bind fun _ => .pure _) s hs hd
  · cases hword : s.modifier? with
    | some word => exact .bind (.advance (State.rest_ne_nil_of_modifier? hword))
    | none =>
        cases hlength : s.sealedLength? with
        | some n =>
            obtain ⟨hrest, hpos⟩ := State.rest_ne_nil_of_sealedLength? hlength
            obtain ⟨n, rfl⟩ := Nat.exists_eq_add_one.2 hpos
            exact .bind (.skip hrest n)
        | none => exact .ite (fun h => .bind (annotations_productiveAt h)) fun _ => .other id

/-! ### Types -/

theorem dimensions_mirrors : Mirrors c low Walk.dimensions dimensions := by
  refine .repeatWhile (.window fun s hs hd => ?_) (.state fun s => ?_)
  · exact .ite (by simp) (fun _ => ((skip_mirrors 2).bind fun _ => .pure _) s hs hd) fun _ => .pure _
  · refine .ite (fun hpair => .bind (.skip ?_ 1)) fun _ => .other Bool.false_ne_true
    exact State.rest_ne_nil_of_sees (State.sees_of_seesPair hpair)

theorem typeSuffixes_mirrors : Mirrors c low Walk.typeSuffixes typeSuffixes := by
  refine .repeatWhile (.window fun s hs hd => ?_) (.state fun s => ?_)
  · refine .ite (by simp) (fun hsees => ?_) fun _ =>
      .ite (by simp) (fun _ => ?_) fun _ => .ite (by simp) (fun _ => ?_) fun _ => .pure _
    · exact (skipBalanced_mirrors rfl hs hsees).go fun _ _ _ _ => .pure _
    · exact ((skip_mirrors 2).bind fun _ => .pure _) s hs hd
    · exact (advance_mirrors.bind fun _ => annotations_mirrors.bind fun _ => .pure _) s hs hd
  · refine .ite (fun _ => .of_advances _) fun _ =>
      .ite (fun hdot => .bind (.skip ?_ 1)) fun _ =>
        .ite (fun hpair => .bind (.advance ?_)) fun _ => .other Bool.false_ne_true
    · exact State.rest_ne_nil_of_sees (Bool.and_eq_true_iff.1 hdot).1
    · exact State.rest_ne_nil_of_sees (State.sees_of_seesPair hpair)

theorem typeReference_mirrors : Mirrors c low Walk.typeReference typeReference := by
  refine .bind annotations_mirrors fun _ s hs _ => .position (.window hs ?_)
  refine .ite (by simp) (fun _ => ?_) fun _ => unexpected_mirrors _ s hs (Nat.zero_le _)
  refine (advance_mirrorsAt hs).go fun _ behind hbehind _ => ?_
  have hsuffixes := typeSuffixes_mirrors behind (hs.goes hbehind) (Nat.zero_le _)
  refine hsuffixes.go fun _ later hlater _ => ?_
  have hlater := hbehind.trans hlater
  have hdimensions := dimensions_mirrors later (hs.goes hlater) (Nat.zero_le _)
  refine hdimensions.go fun _ n hn _ => ?_
  have hn := hlater.trans hn
  exact textSince_mark hs (hs.goes hn) hn.index_le

theorem typeList_mirrors : Mirrors c low Walk.typeList typeList := .commaSeparated typeReference_mirrors

theorem typeParameters_mirrors : Mirrors c low Walk.typeParameters typeParameters := by
  intro s hs _
  refine .position (.window hs (.ite (by simp) (fun hsees => ?_) fun _ => .pure _))
  refine (skipBalanced_mirrors rfl hs hsees).go fun _ n hn _ => ?_
  rw [MirrorsAt, Walk.bind_done (textSince_mark hs (hs.goes hn) hn.index_le)]
  rfl

/-! ### Expressions and variables -/

theorem parenthesized_mirrors : Mirrors c low Walk.parenthesized parenthesized :=
  .bind (expect_mirrors _) fun _ => .bind (expressionUntil_mirrors _) fun _ =>
    .bind (expect_mirrors _) fun _ => .pure _

theorem arguments_mirrors : Mirrors c low Walk.arguments arguments := by
  refine .bind (expect_mirrors _) fun _ => .bind (accept_mirrors _) fun _ => .ite (.pure _) ?_
  exact .bind (.commaSeparated (expressionUntil_mirrors _)) fun _ =>
    .bind (expect_mirrors _) fun _ => .pure _

theorem declarator_mirrors (name : String) (start : Position) :
    Mirrors c low (Walk.declarator name start) (declarator name start) :=
  .bind dimensions_mirrors fun _ => .bind (.whenAccepted _ (expressionUntil_mirrors _)) fun _ =>
    .bind (spanFrom_mirrors start) fun _ => .pure _

/-- **The first variable began at a token of the list**, if its name was just read. -/
theorem declarators_mirrorsAt (firstName : String) (hs : s.OnWay c.tokens) (hpos : 0 < s.index) :
    MirrorsAt c s (Walk.declarators firstName) (declarators firstName) := by
  obtain ⟨i, hi⟩ : ∃ i, s.index = i + 1 := Nat.exists_eq_add_one.2 hpos
  obtain ⟨t, hitem, hlast⟩ := hs.last_eq hi
  have hbehind : Checked.item c.tokens (s.mark.pos - 1) = .ok t := by
    have hpos : s.mark.pos - 1 = i := Nat.sub_eq_of_eq_add hi
    rw [hpos, Checked.item_ok hitem]
  have hstate : Parser.state c.parser s = .ok s s := rfl
  rw [MirrorsAt, Walk.declarators, Walk.bind_done (Walk.position_done _ _),
    Walk.bind_done (Walk.tokens_done _ _), Walk.bind_done (Walk.lift_done hbehind),
    declarators, bind_of_ok hstate, hlast]
  refine (?_ : Mirrors c 0 _ _) s hs (Nat.zero_le _)
  refine .bind (declarator_mirrors firstName _) fun _ => .bind (.gather ?_ ?_) fun _ => .pure _
  · refine .bind (accept_mirrors ",") fun _ => .ite ?_ (.pure _)
    exact .bind here_mirrors fun _ => .bind identifier_mirrors fun name =>
      .bind (declarator_mirrors name _) fun _ => .pure _
  · exact .pass fun _ => .ite (.of_advances _) (.other id)

theorem looksLikeLocalDeclaration_mirrors :
    Mirrors c low Walk.looksLikeLocalDeclaration looksLikeLocalDeclaration :=
  .lookingPast typeReference_mirrors fun s => by simp

end

end JavaOutline
