/-
**The outline of a sketch is read.**

The tokens of a sketch are parsed without an error, and what comes out is the outline of the sketch.
Members are told apart by what they begin with, so for each place where the parser looks ahead it is
said what the tokens there cannot be.  Types are nested as deeply as the levels go: the parsers of a
level read the types that are nested so deeply, because the parsers one level deeper do.

Main definitions:

* `Nested.ReadsTypes` — the parsers one level deeper read the types of some depth.

Main results:

* `member_reads`, `typeDeclBody_reads` — members and types, given what is read one level deeper;
* `nestedAt_reads` — **types are read at every level**;
* `sketch_parses` — **the tokens of a sketch give its outline**, full or on a diet.
-/

import JavaOutline.Proofs.DietAgreement
import JavaOutline.Proofs.SilentReading

set_option autoImplicit false

namespace JavaOutline

open JavaOutline.Parser

variable {setting : Setting} {depth : Nat} {view : List Token} {texts : List String}

/-! ### What words begin with -/

/-- What modifiers stand in front of does not begin with other words than they or it do. -/
theorem avoids_modifiers (words : List ModifierWord) (h : ∀ text ∈ texts, text ∉ modifierWords)
    (hview : Avoids texts view) : Avoids texts (words.map ModifierWord.token ++ view) := by
  cases words with
  | nil => exact hview
  | cons m words => exact m.avoids h

theorem avoids_clause {opening : String} (types : List TypeWord) (h : opening ∉ texts)
    (hview : Avoids texts view) : Avoids texts (clauseWords opening types ++ view) := by
  cases types with
  | nil => exact hview
  | cons first others => exact avoids_keyword.2 h

/-- A type of one token may follow modifiers. -/
theorem TypeWord.endsModifiers (t : TypeWord) : EndsModifiers (t.token :: view) where
  modifier := by
    cases t with
    | name n => rfl
    | primitive text known =>
        have hfree : ∀ text ∈ primitiveTypes, text ∉ modifierWords := by decide
        have hnone : modifierWords.contains text = false := by simpa using hfree text known
        simp only [State.modifier?, TypeWord.token, Token.keyword, hnone, Bool.and_false,
          if_neg Bool.false_ne_true]
    | wildcard => rfl
  sealed := by
    have hsealed : t.token.isName "sealed" = false ∧ t.token.isName "non" = false := by
      cases t with
      | name n =>
          have hplain := n.plain
          simp [contextualWords] at hplain
          simp [TypeWord.token, PlainName.token, hplain]
      | primitive text known => exact ⟨Token.keyword_isName _ _, Token.keyword_isName _ _⟩
      | wildcard => exact ⟨rfl, rfl⟩
    cases view with
    | nil => rfl
    | cons next rest =>
        simp only [State.sealedLength?, hsealed.1, hsealed.2, if_neg Bool.false_ne_true]
  annotation := Avoids.seesAnnotations (t.avoids (by decide))
  label := t.avoids (by decide)

/-! ### Bodies -/

section

variable (sub : Nested)

theorem block_reads : Reads setting depth (block sub)
    (.operator "\x7b" :: .operator "\x7d" :: view) view (·.statements = []) := by
  have hnothing : Reads setting depth (blockStatements sub) (.operator "\x7d" :: view)
      (.operator "\x7d" :: view) (· = []) := by
    refine Repeats.gather (.stop (state_reads.bind fun s hs => ?_) rfl)
    rw [if_pos (by rw [hs.sees]; rfl)]
    exact .pure rfl
  exact (expect_reads (by decide)).bind fun opening _ => hnothing.bind_eq <|
    (accept_reads (by decide)).bind_eq <| spanFrom_reads.bind fun _ _ => .pure rfl

/-- **Empty braces are a body**, which is passed over on a diet. -/
theorem body_reads : Reads setting depth (body sub)
    (.operator "\x7b" :: .operator "\x7d" :: view) view (·.bare = emptyBody setting.diet) := by
  refine (sees_reads (by decide)).bind_eq (isDiet_reads.bind_eq ?_)
  cases setting.diet with
  | true => exact bracketed_reads.bind fun span _ => .pure rfl
  | false =>
      refine (block_reads sub).bind fun b hb => .pure ?_
      rw [Body.bare, hb]
      rfl

theorem methodBody_reads (hasBody : Bool) :
    Reads setting depth (methodBody sub) (bodyWords hasBody ++ view) view
      (·.bare = if hasBody then emptyBody setting.diet else .absent) := by
  cases hasBody with
  | true => exact (accept_passes (by rfl)).bind_eq (body_reads sub)
  | false => exact (accept_reads (by decide)).bind_eq (.pure rfl)

end

/-! ### Methods -/

theorem parameterName_reads (name : PlainName) (h : Avoids ["["] view) :
    Reads setting depth parameterName (name.token :: view) view (· = name.text) :=
  (accept_passes (by rfl)).bind_eq <| (identifier_reads name.text).bind_eq <|
    (dimensions_reads h).bind fun _ _ => .pure rfl

theorem parameter_reads (p : ParameterSketch) (h : Avoids ["["] view) :
    Reads setting depth parameter (p.words ++ view) view (·.bare = p.decl) := by
  have htype : Avoids ["<", ".", "["]
      (wordsIf p.varargs [.operator "..."] ++ (p.name.token :: view)) := by
    cases p.varargs with
    | true => exact avoids_operator.2 (by decide)
    | false => exact avoids_identifier
  simp only [ParameterSketch.words, List.append_assoc, List.cons_append, List.nil_append]
  exact here_reads.bind fun start _ => (modifiers_reads p.modifiers p.type.endsModifiers).bind_eq <|
    (typeReference_reads p.type htype).bind_eq <|
    (accept_flag p.varargs (by decide) rfl).bind_eq <|
    (parameterName_reads p.name h).bind_eq <| spanFrom_reads.bind fun span _ => .pure rfl

theorem parameters_reads (ps : List ParameterSketch) :
    Reads setting depth parameters
      (.operator "(" :: (commaWords ParameterSketch.words ps ++ (.operator ")" :: view))) view
      (·.map Parameter.bare = ps.map ParameterSketch.decl) := by
  refine (expect_reads (by decide)).bind fun _ _ => ?_
  cases ps with
  | nil => exact (accept_reads (by decide)).bind_eq (.pure rfl)
  | cons p ps =>
      have hopen : Avoids [")"]
          (commaWords ParameterSketch.words (p :: ps) ++ (.operator ")" :: view)) := by
        rw [commaWords, ParameterSketch.words, List.append_assoc, List.append_assoc]
        exact avoids_modifiers _ (by decide) (p.type.avoids (by decide))
      refine (accept_passes (hopen ")" (by simp))).bind_eq ?_
      refine (commaSeparated_reads _ _ _ (Avoids ["["])
        (fun p _ later hlater => parameter_reads p hlater)
        (fun later => avoids_operator.2 (by decide)) (avoids_operator.2 (by decide)) rfl).bind
        fun found hfound => ?_
      exact (expect_reads (by decide)).bind fun _ _ => .pure hfound

/-- **A method is read from its parameters on.** -/
theorem methodRest_reads (sub : Nested) (words : List ModifierWord) (type : Option TypeWord)
    (name : String) (start : Position) (tail : MethodTail) :
    Reads setting depth
      (methodRest sub { modifiers := words.map ModifierWord.text, typeParameters := none
                        returnType := type.map TypeWord.text, name, start })
      (tail.words ++ view) view (·.bare = .method (tail.decl setting.diet words type name)) := by
  have hend : Avoids ["[", "throws", ",", "<", ".", "default"]
      (bodyWords tail.hasBody ++ view) := by
    cases tail.hasBody with
    | true => exact avoids_operator.2 (by decide)
    | false => exact avoids_operator.2 (by decide)
  have hthrows : Avoids ["["]
      (clauseWords "throws" tail.throws ++ (bodyWords tail.hasBody ++ view)) :=
    avoids_clause _ (by decide) (hend.mono (by simp))
  simp only [MethodTail.words, List.append_assoc, List.cons_append]
  refine (parameters_reads tail.parameters).bind fun parameters hparameters => ?_
  refine (dimensions_reads hthrows).bind fun _ _ => ?_
  refine (clause_reads tail.throws (hend.mono (by simp))).bind fun throws hthrows => ?_
  refine (whenAccepted_passes (hend "default" (by simp))).bind_eq ?_
  refine (methodBody_reads sub tail.hasBody).bind fun body hbody => ?_
  refine spanFrom_reads.bind fun span _ => .pure ?_
  simp only [Member.bare, MethodTail.decl, hparameters, hthrows, hbody]

/-! ### Members -/

/-- The modifiers of a type. -/
def TypeSketch.modifiers : TypeSketch → List ModifierWord
  | .mk modifiers _ _ _ => modifiers

/-- The tokens of a type behind its modifiers. -/
def TypeSketch.tailWords : TypeSketch → List Token
  | .mk _ header name members =>
      header.opening ++ (name.token :: (header.supertypeWords ++ (.operator "\x7b" ::
        (header.constantWords (!members.isEmpty) ++
          (MemberSketch.wordsIn name members ++ [.operator "\x7d"])))))

theorem TypeSketch.words_eq (t : TypeSketch) :
    t.words = t.modifiers.map ModifierWord.token ++ t.tailWords := by
  cases t
  rw [TypeSketch.words]
  rfl

/-- The parsers one level deeper read the types in which types are nested so deeply at most. -/
def Nested.ReadsTypes (sub : Nested) (setting : Setting) (depth levels : Nat) : Prop :=
  ∀ (t : TypeSketch) (start : Position) (view : List Token), t.depth ≤ levels →
    Reads setting depth (sub.typeDecl (t.modifiers.map ModifierWord.text) start)
      (t.tailWords ++ view) view (·.bare = t.decl setting.diet)

/-- What introduces a type may follow modifiers, and a declaration of a type is seen there. -/
theorem TypeSketch.tailWords_ahead (t : TypeSketch) (view : List Token) :
    EndsModifiers (t.tailWords ++ view) ∧
    ({ rest := t.tailWords ++ view } : State).seesTypeDecl = true ∧
    Avoids ["static", "\x7b", "\x7d", ";", "package", "import"] (t.tailWords ++ view) := by
  obtain ⟨_, header, _, _⟩ := t
  cases header with
  | classType superclass interfaces =>
      exact ⟨⟨rfl, rfl, rfl, avoids_keyword.2 (by decide)⟩, rfl, avoids_keyword.2 (by decide)⟩
  | interfaceType interfaces =>
      exact ⟨⟨rfl, rfl, rfl, avoids_keyword.2 (by decide)⟩, rfl, avoids_keyword.2 (by decide)⟩
  | enumType interfaces constants =>
      exact ⟨⟨rfl, rfl, rfl, avoids_keyword.2 (by decide)⟩, rfl, avoids_keyword.2 (by decide)⟩
  | annotationType =>
      exact ⟨⟨rfl, rfl, rfl, avoids_operator.2 (by decide)⟩, rfl, avoids_operator.2 (by decide)⟩

/-- Where modifiers are ahead, no initializer is. -/
theorem not_initializer {s : State} (words : List ModifierWord) (h : Avoids ["static", "\x7b"] view)
    (hs : s.Shows setting depth (words.map ModifierWord.token ++ view)) :
    ¬ (s.sees "\x7b" || s.seesPair "static" "\x7b") = true := by
  have hbrace : Avoids ["\x7b"] (words.map ModifierWord.token ++ view) :=
    avoids_modifiers words (by decide) (h.mono (by simp))
  rw [State.seesPair, hs.sees, hs.sees, hs.seesSecond, hbrace "\x7b" (by simp), Bool.false_or]
  cases words with
  | nil =>
      rw [List.map_nil, List.nil_append, h "static" (by simp)]
      exact Bool.false_ne_true
  | cons m words =>
      have hsecond : Avoids ["\x7b"] (words.map ModifierWord.token ++ view) :=
        avoids_modifiers words (by decide) (h.mono (by simp))
      rw [List.map_cons, List.cons_append, List.getElem?_cons_succ, ← List.head?_eq_getElem?,
        hsecond "\x7b" (by simp), Bool.and_false]
      exact Bool.false_ne_true

/-- Behind its modifiers, what begins with a type of one token is no declaration of a type. -/
theorem TypeWord.not_typeDecl (t : TypeWord) :
    ({ rest := t.token :: view } : State).seesTypeDecl = false := by
  have hplain : t.token.isName "record" = false := by
    cases t with
    | name n =>
        have hplain := n.plain
        simp only [contextualWords, List.mem_cons, not_or] at hplain
        simpa [TypeWord.token, PlainName.token] using hplain.1
    | primitive text known => exact Token.keyword_isName _ _
    | wildcard => rfl
  have havoids : Avoids ["class", "interface", "enum", "@"] (t.token :: view) := t.avoids (by decide)
  have hsees : ∀ text ∈ ["class", "interface", "enum", "@"],
      ({ rest := t.token :: view } : State).sees text = false := havoids
  have hname : ({ rest := t.token :: view } : State).seesName "record" = false := hplain
  simp only [State.seesTypeDecl, State.seesPair, hsees "class" (by simp),
    hsees "interface" (by simp), hsees "enum" (by simp), hsees "@" (by simp), hname, Bool.or_self, Bool.false_and]

/-- Reads what no declaration of a type and no initializer is, behind its modifiers: a constructor, or
a method or a field. -/
def constructorOrTyped (sub : Nested) (typeName : String) (modifiers : List String)
    (start : Position) : Parser Member := do
  let s ← state
  let head := { modifiers, typeParameters := none, returnType := none, name := typeName, start }
  if s.seesName typeName && s.seesSecond "(" then
    advance
    methodRest sub head
  else if s.seesName typeName && s.seesSecond "\x7b" then
    advance
    compactConstructor sub head
  else typedMember sub modifiers none start

/-- A member that begins with a type of one token is read from behind its modifiers on. -/
theorem member_reads_behind (sub : Nested) (typeName : String) (words : List ModifierWord)
    (t : TypeWord) {after : List Token} {good : Member → Prop}
    (h : ∀ start, Reads setting depth
      (constructorOrTyped sub typeName (words.map ModifierWord.text) start)
      (t.token :: view) after good) :
    Reads setting depth (member sub typeName)
      (words.map ModifierWord.token ++ (t.token :: view)) after good := by
  refine here_reads.bind fun start _ => state_reads.bind fun s hs => ?_
  rw [if_neg (not_initializer words (t.avoids (by decide)) hs)]
  refine (modifiers_reads words t.endsModifiers).bind_eq (state_reads.bind fun s hs => ?_)
  rw [hs.seesTypeDecl, t.not_typeDecl, if_neg Bool.false_ne_true]
  have harguments : Avoids ["<"] (t.token :: view) := t.avoids (by decide)
  exact (typeParameters_reads harguments).bind_eq (h start)

/-- What begins with a type and a name is no constructor. -/
theorem typed_reads (sub : Nested) (typeName : String) (words : List ModifierWord)
    (start : Position) (t : TypeWord) (name : PlainName) {after : List Token} {good : Member → Prop}
    (h : Reads setting depth
      (typedMember sub (words.map ModifierWord.text) none start) (t.token :: name.token :: view)
      after good) :
    Reads setting depth (constructorOrTyped sub typeName (words.map ModifierWord.text) start)
      (t.token :: name.token :: view) after good := by
  refine state_reads.bind fun s hs => ?_
  have hsecond (text : String) : ¬ (s.seesName typeName && s.seesSecond text) = true := by
    have hnone : s.seesSecond text = false := (hs.seesSecond text).trans (Token.identifier_is _ _)
    rw [hnone, Bool.and_false]
    exact Bool.false_ne_true
  rw [if_neg (hsecond "("), if_neg (hsecond "\x7b")]
  exact h

theorem field_reads (sub : Nested) (words : List ModifierWord) (start : Position) (t : TypeWord)
    (first : PlainName) (others : List PlainName) :
    Reads setting depth (typedMember sub (words.map ModifierWord.text) none start)
      (t.token :: first.token :: ((others.flatMap fun n => [.operator ",", n.token]) ++
        (.operator ";" :: view))) view
      (·.bare = .field { modifiers := words.map ModifierWord.text, typeName := t.text
                         declarators := (first :: others).map fun n => { name := n.text, span := {} }
                         span := {} }) := by
  have hparenthesis : Avoids ["("]
      ((others.flatMap fun n => [.operator ",", n.token]) ++ (.operator ";" :: view)) := by
    cases others with
    | nil => exact avoids_operator.2 (by decide)
    | cons n others => exact avoids_operator.2 (by decide)
  refine (typeReference_reads t avoids_identifier).bind_eq <|
    (identifier_reads first.text).bind_eq <|
    (sees_passes (hparenthesis "(" (by simp))).bind_eq <|
    (declarators_reads first others (avoids_operator.2 (by decide))).bind fun found hfound => ?_
  refine (expect_reads (by decide)).bind fun _ _ => spanFrom_reads.bind fun span _ => .pure ?_
  simp only [Member.bare, hfound]

theorem method_reads (sub : Nested) (words : List ModifierWord) (start : Position) (t : TypeWord)
    (name : PlainName) (tail : MethodTail) :
    Reads setting depth (typedMember sub (words.map ModifierWord.text) none start)
      (t.token :: name.token :: (tail.words ++ view)) view
      (·.bare = .method (tail.decl setting.diet words (some t) name.text)) :=
  (typeReference_reads t avoids_identifier).bind_eq <| (identifier_reads name.text).bind_eq <|
    (sees_reads (by decide)).bind_eq <|
    methodRest_reads sub words (some t) name.text start tail

theorem constructor_reads (sub : Nested) (typeName : PlainName) (words : List ModifierWord)
    (start : Position) (tail : MethodTail) :
    Reads setting depth (constructorOrTyped sub typeName.text (words.map ModifierWord.text) start)
      (typeName.token :: (tail.words ++ view)) view
      (·.bare = .method (tail.decl setting.diet words none typeName.text)) := by
  refine state_reads.bind fun s hs => ?_
  have hname : (s.seesName typeName.text && s.seesSecond "(") = true := by
    rw [hs.seesName, hs.seesSecond]
    simp [PlainName.token, MethodTail.words]
  rw [if_pos hname]
  exact advance_reads.bind fun _ _ => methodRest_reads sub words none typeName.text start tail

theorem initializer_reads (sub : Nested) (typeName : String) (isStatic : Bool) :
    Reads setting depth (member sub typeName)
      (wordsIf isStatic [.keyword "static"] ++ (bodyWords true ++ view)) view
      (·.bare = .initializer { isStatic, body := emptyBody setting.diet, span := {} }) := by
  refine here_reads.bind fun start _ => state_reads.bind fun s hs => ?_
  have hahead : (s.sees "\x7b" || s.seesPair "static" "\x7b") = true := by
    rw [State.seesPair, hs.sees, hs.sees, hs.seesSecond]
    cases isStatic <;> rfl
  rw [if_pos hahead]
  refine (accept_flag isStatic (by decide) rfl).bind_eq <| (body_reads sub).bind fun found hfound =>
    spanFrom_reads.bind fun span _ => .pure ?_
  simp only [Member.bare, hfound]

/-- A type among the members is read by the parser one level deeper. -/
theorem memberType_reads (sub : Nested) {levels : Nat} (hsub : sub.ReadsTypes setting depth levels)
    (typeName : String) (t : TypeSketch) (h : t.depth ≤ levels) :
    Reads setting depth (member sub typeName) (t.words ++ view) view
      (·.bare = .type (t.decl setting.diet)) := by
  obtain ⟨hends, hdecl, havoids⟩ := t.tailWords_ahead view
  rw [t.words_eq, List.append_assoc]
  refine here_reads.bind fun start _ => state_reads.bind fun s hs => ?_
  rw [if_neg (not_initializer _ (havoids.mono (by simp)) hs)]
  refine (modifiers_reads _ hends).bind_eq (state_reads.bind fun s hs => ?_)
  rw [hs.seesTypeDecl, if_pos hdecl]
  refine (hsub t start view h).bind fun found hfound => .pure ?_
  rw [Member.bare, hfound]

/-- **A member is read**, whatever it is. -/
theorem member_reads (sub : Nested) {levels : Nat} (hsub : sub.ReadsTypes setting depth levels)
    (typeName : PlainName) (m : MemberSketch) (h : m.depth ≤ levels) :
    Reads setting depth (member sub typeName.text) (m.words typeName ++ view) view
      (·.bare = m.member setting.diet typeName) := by
  cases m with
  | type decl => exact memberType_reads sub hsub typeName.text decl h
  | field words type first others =>
      simp only [MemberSketch.words, commaWords, List.append_assoc, List.cons_append,
        List.nil_append]
      exact member_reads_behind sub _ words type fun start =>
        typed_reads sub _ words start type first (field_reads sub words start type first others)
  | method words type name tail =>
      simp only [MemberSketch.words, List.append_assoc, List.cons_append]
      exact member_reads_behind sub _ words type fun start =>
        typed_reads sub _ words start type name (method_reads sub words start type name tail)
  | constructor words tail =>
      simp only [MemberSketch.words, List.append_assoc, List.cons_append]
      exact member_reads_behind sub _ words (.name typeName) fun start =>
        constructor_reads sub typeName words start tail
  | initializer isStatic =>
      simp only [MemberSketch.words, List.append_assoc]
      exact initializer_reads sub typeName.text isStatic

/-! ### Lists of members and constants -/

/-- A member begins neither with a closing brace nor with a semicolon. -/
theorem MemberSketch.words_avoid (typeName : PlainName) (m : MemberSketch) (view : List Token) :
    m.words typeName ≠ [] ∧ Avoids ["\x7d", ";"] (m.words typeName ++ view) := by
  cases m with
  | type decl =>
      obtain ⟨-, hdecl, havoids⟩ := decl.tailWords_ahead view
      rw [MemberSketch.words, decl.words_eq, List.append_assoc]
      refine ⟨?_, avoids_modifiers _ (by decide) (havoids.mono (by simp))⟩
      obtain ⟨_, header, _, _⟩ := decl
      cases header <;> exact List.append_ne_nil_of_right_ne_nil _ nofun
  | field words type first others =>
      rw [MemberSketch.words, List.append_assoc]
      exact ⟨List.append_ne_nil_of_right_ne_nil _ nofun,
        avoids_modifiers _ (by decide) (type.avoids (by decide))⟩
  | method words type name tail =>
      rw [MemberSketch.words, List.append_assoc]
      exact ⟨List.append_ne_nil_of_right_ne_nil _ nofun,
        avoids_modifiers _ (by decide) (type.avoids (by decide))⟩
  | constructor words tail =>
      rw [MemberSketch.words, List.append_assoc]
      exact ⟨List.append_ne_nil_of_right_ne_nil _ nofun,
        avoids_modifiers _ (by decide) avoids_identifier⟩
  | initializer isStatic =>
      cases isStatic with
      | true => exact ⟨nofun, avoids_keyword.2 (by decide)⟩
      | false => exact ⟨nofun, avoids_operator.2 (by decide)⟩

/-- **Members are read up to the closing brace.** -/
theorem members_reads (sub : Nested) {levels : Nat} (hsub : sub.ReadsTypes setting depth levels)
    (typeName : PlainName) (ms : List MemberSketch) (h : MemberSketch.depthIn ms ≤ levels) :
    Reads setting depth (members sub typeName.text)
      (MemberSketch.wordsIn typeName ms ++ (.operator "\x7d" :: view)) (.operator "\x7d" :: view)
      (·.map Member.bare = MemberSketch.membersIn setting.diet typeName ms) := by
  rw [MemberSketch.wordsIn_eq, MemberSketch.membersIn_eq]
  refine Repeats.gather (Repeats.items _ _ _ (fun _ => True) (fun m hm later _ => ?_)
    (fun m _ => (m.words_avoid typeName []).1) (fun _ _ _ _ => trivial) trivial ?_)
  · obtain ⟨hne, havoids⟩ := m.words_avoid typeName later
    refine state_reads.bind fun s hs => ?_
    rw [hs.sees, havoids "\x7d" (by simp), if_neg Bool.false_ne_true, hs.isEmpty,
      if_neg (by simp [hne])]
    refine (accept_passes (havoids ";" (by simp))).bind_eq ?_
    exact orSkip_reads
      (member_reads sub hsub typeName m (Nat.le_trans (MemberSketch.depth_le hm) h))
  · refine state_reads.bind fun s hs => ?_
    rw [if_pos (by rw [hs.sees]; rfl)]
    exact .pure rfl

theorem enumConstant_reads (sub : Nested) (name : PlainName) (h : Avoids ["(", "\x7b"] view) :
    Reads setting depth (enumConstant sub) (name.token :: view) view
      (·.bare = .enumConstant { name := name.text, span := {} }) := by
  refine here_reads.bind fun start _ => (identifier_reads name.text).bind_eq ?_
  have harguments : Reads setting depth constantArguments view view (· = []) :=
    (sees_passes (h "(" (by simp))).bind_eq (.pure rfl)
  have hbody : Reads setting depth (constantBody sub name.text) view view (· = none) :=
    here_reads.bind fun _ _ => (sees_passes (h "\x7b" (by simp))).bind_eq (.pure rfl)
  exact harguments.bind_eq <| hbody.bind_eq <| spanFrom_reads.bind fun span _ => .pure rfl

/-- Constants are read in front of what ends them. -/
theorem enumConstants_reads (sub : Nested) (constants : List PlainName) {after : List Token}
    (hend : Reads setting depth constantsEnd view after (· = true))
    (h : Avoids ["@", "(", "\x7b", ","] view) :
    Reads setting depth (enumConstants sub)
      (commaWords (fun n => [PlainName.token n]) constants ++ view) after
      (·.map Member.bare =
        constants.map fun n => .enumConstant { name := n.text, span := {} }) := by
  have hgoesOn (n : PlainName) {later : List Token} :
      Reads setting depth constantsEnd (n.token :: later) (n.token :: later) (· = false) :=
    (accept_passes rfl).bind_eq (sees_passes rfl)
  have hannotations (n : PlainName) {later : List Token} :
      Reads setting depth annotations (n.token :: later) (n.token :: later) fun _ => True :=
    annotations_reads rfl
  refine Repeats.gather ?_
  induction constants with
  | nil =>
      refine .stop ((annotations_reads (h.mono (by simp)).seesAnnotations).bind fun _ _ => ?_) rfl
      exact hend.bind_eq (.pure rfl)
  | cons n constants ih =>
      cases constants with
      | nil =>
          refine .final ((hannotations n).bind fun _ _ => (hgoesOn n).bind_eq ?_)
          refine (enumConstant_reads sub n (h.mono (by simp))).bind fun a ha => ?_
          refine (accept_passes (h "," (by simp))).bind_eq (hend.bind_eq (.pure ⟨a, rfl, ?_⟩))
          rw [List.map_singleton, List.map_singleton, ha]
      | cons n' constants =>
          refine .take (commaWords (fun n => [PlainName.token n]) (n' :: constants) ++ view)
            (·.bare = .enumConstant { name := n.text, span := {} })
            ((hannotations n).bind fun _ _ => (hgoesOn n).bind_eq ?_) (by simp [commaWords])
            fun a ha fuel hfuel => (ih fuel hfuel).mono fun found hfound => ?_
          · refine (enumConstant_reads sub n (avoids_operator.2 (by decide))).bind fun a ha => ?_
            exact (accept_reads (by decide)).bind_eq (.pure ⟨a, rfl, ha⟩)
          · rw [List.map_cons, List.map_cons, ha, hfound]

/-! ### Types -/

theorem classBody_reads (sub : Nested) {levels : Nat} (hsub : sub.ReadsTypes setting depth levels)
    (typeName : PlainName) (ms : List MemberSketch) (h : MemberSketch.depthIn ms ≤ levels) :
    Reads setting depth (classBody sub typeName.text)
      (.operator "\x7b" :: (MemberSketch.wordsIn typeName ms ++ (.operator "\x7d" :: view))) view
      (·.map Member.bare = MemberSketch.membersIn setting.diet typeName ms) :=
  (expect_reads (by decide)).bind fun _ _ =>
    (members_reads sub hsub typeName ms h).bind fun found hfound =>
      (accept_reads (by decide)).bind_eq (.pure hfound)

theorem enumBody_reads (sub : Nested) {levels : Nat} (hsub : sub.ReadsTypes setting depth levels)
    (typeName : PlainName) (constants : List PlainName) (ms : List MemberSketch)
    (h : MemberSketch.depthIn ms ≤ levels) :
    Reads setting depth (enumBody sub typeName.text)
      (.operator "\x7b" :: (commaWords (fun n => [PlainName.token n]) constants ++
        (wordsIf (!ms.isEmpty) [.operator ";"] ++
          (MemberSketch.wordsIn typeName ms ++ (.operator "\x7d" :: view))))) view
      (·.map Member.bare = (constants.map fun n => .enumConstant { name := n.text, span := {} }) ++
        MemberSketch.membersIn setting.diet typeName ms) := by
  have hconstants : Reads setting depth (enumConstants sub)
      (commaWords (fun n => [PlainName.token n]) constants ++
        (wordsIf (!ms.isEmpty) [.operator ";"] ++
          (MemberSketch.wordsIn typeName ms ++ (.operator "\x7d" :: view))))
      (MemberSketch.wordsIn typeName ms ++ (.operator "\x7d" :: view))
      (·.map Member.bare = constants.map fun n => .enumConstant { name := n.text, span := {} }) := by
    cases ms with
    | nil =>
        exact enumConstants_reads sub constants ((accept_passes rfl).bind_eq (sees_reads rfl))
          (avoids_operator.2 (by decide))
    | cons m ms =>
        exact enumConstants_reads sub constants ((accept_reads (by decide)).bind_eq (.pure rfl))
          (avoids_operator.2 (by decide))
  refine (expect_reads (by decide)).bind fun _ _ => hconstants.bind fun found hfound =>
    (members_reads sub hsub typeName ms h).bind fun found' hfound' =>
      (accept_reads (by decide)).bind_eq (.pure ?_)
  rw [List.map_append, hfound, hfound']

theorem typeBody_reads (sub : Nested) {levels : Nat} (hsub : sub.ReadsTypes setting depth levels)
    (header : TypeHeader) (typeName : PlainName) (ms : List MemberSketch)
    (h : MemberSketch.depthIn ms ≤ levels) :
    Reads setting depth (typeBody sub header.kind typeName.text)
      (.operator "\x7b" :: (header.constantWords (!ms.isEmpty) ++
        (MemberSketch.wordsIn typeName ms ++ (.operator "\x7d" :: view)))) view
      (·.map Member.bare =
        header.constants.map (fun n => .enumConstant { name := n.text, span := {} }) ++
          MemberSketch.membersIn setting.diet typeName ms) := by
  cases header with
  | classType superclass interfaces => exact classBody_reads sub hsub typeName ms h
  | interfaceType interfaces => exact classBody_reads sub hsub typeName ms h
  | enumType interfaces constants =>
      rw [TypeHeader.constantWords, List.append_assoc]
      exact enumBody_reads sub hsub typeName constants ms h
  | annotationType => exact classBody_reads sub hsub typeName ms h

theorem typeKind_reads (header : TypeHeader) :
    Reads setting depth typeKind (header.opening ++ view) view (· = header.kind) := by
  refine state_reads.bind fun s hs => ?_
  rw [State.seesPair, hs.sees, hs.sees, hs.sees, hs.sees, hs.seesSecond]
  cases header with
  | classType superclass interfaces => exact advance_reads.bind fun _ _ => .pure rfl
  | interfaceType interfaces => exact advance_reads.bind fun _ _ => .pure rfl
  | enumType interfaces constants => exact advance_reads.bind fun _ _ => .pure rfl
  | annotationType => exact skip_two_reads.bind fun _ _ => .pure rfl

/-- A superclass behind its keyword, or none. -/
theorem superclass_reads (superclass : Option TypeWord)
    (h : Avoids ["extends", "<", ".", "["] view) :
    Reads setting depth (whenAccepted "extends" typeReference)
      (clauseWords "extends" superclass.toList ++ view) view
      (· = superclass.map TypeWord.text) := by
  cases superclass with
  | none => exact whenAccepted_passes (h "extends" (by simp))
  | some t =>
      refine (whenAccepted_reads (by simp) (typeReference_reads t (h.mono (by simp)))).mono
        fun found hfound => ?_
      obtain ⟨text, rfl, rfl⟩ := hfound
      rfl

theorem supertypeClauses_reads (header : TypeHeader) :
    Reads setting depth (supertypeClauses header.kind)
      (header.supertypeWords ++ (.operator "\x7b" :: view)) (.operator "\x7b" :: view)
      (· = (header.superclass.map TypeWord.text, header.interfaces.map TypeWord.text)) := by
  have hbrace : Avoids ["extends", "implements", ",", "<", ".", "["] (.operator "\x7b" :: view) :=
    avoids_operator.2 (by decide)
  cases header with
  | classType superclass interfaces =>
      rw [TypeHeader.supertypeWords, List.append_assoc]
      refine (superclass_reads superclass
        (avoids_clause interfaces (by decide) (hbrace.mono (by simp)))).bind_eq ?_
      refine (clause_reads interfaces (hbrace.mono (by simp))).bind fun found hfound => .pure ?_
      rw [hfound]
      rfl
  | interfaceType interfaces =>
      refine (clause_reads interfaces (hbrace.mono (by simp))).bind fun found hfound => ?_
      refine (whenAccepted_passes (hbrace "implements" (by simp))).bind_eq (.pure ?_)
      rw [hfound, Option.getD_none, List.append_nil]
      rfl
  | enumType interfaces constants =>
      refine (superclass_reads none
        (avoids_clause interfaces (by decide) (hbrace.mono (by simp)))).bind_eq ?_
      refine (clause_reads interfaces (hbrace.mono (by simp))).bind fun found hfound => .pure ?_
      rw [hfound]
      rfl
  | annotationType =>
      refine (superclass_reads none (hbrace.mono (by simp))).bind_eq ?_
      refine (clause_reads [] (hbrace.mono (by simp))).bind fun found hfound => .pure ?_
      rw [hfound]
      rfl

/-- Behind the name of a type neither type parameters nor components follow. -/
theorem TypeHeader.supertypeWords_avoid (header : TypeHeader) (view : List Token) :
    Avoids ["<", "("] (header.supertypeWords ++ (.operator "\x7b" :: view)) := by
  have hbrace : Avoids ["<", "("] (.operator "\x7b" :: view) := avoids_operator.2 (by decide)
  cases header with
  | classType superclass interfaces =>
      rw [TypeHeader.supertypeWords, List.append_assoc]
      exact avoids_clause _ (by decide) (avoids_clause _ (by decide) hbrace)
  | interfaceType interfaces => exact avoids_clause _ (by decide) hbrace
  | enumType interfaces constants => exact avoids_clause _ (by decide) hbrace
  | annotationType => exact hbrace

/-- **A type is read behind its modifiers**, if what is nested in it is read. -/
theorem typeDeclBody_reads (sub : Nested) {levels : Nat}
    (hsub : sub.ReadsTypes setting depth levels) (t : TypeSketch) (start : Position)
    (h : t.depth ≤ levels + 1) :
    Reads setting depth (typeDeclBody sub (t.modifiers.map ModifierWord.text) start)
      (t.tailWords ++ view) view (·.bare = t.decl setting.diet) := by
  obtain ⟨words, header, name, ms⟩ := t
  have hdepth : MemberSketch.depthIn ms ≤ levels := by
    rw [TypeSketch.depth] at h
    omega
  simp only [TypeSketch.tailWords, List.append_assoc, List.cons_append, List.nil_append]
  refine (typeKind_reads header).bind_eq <| (identifier_reads name.text).bind_eq ?_
  have havoids := header.supertypeWords_avoid (header.constantWords (!ms.isEmpty) ++
    (MemberSketch.wordsIn name ms ++ (.operator "\x7d" :: view)))
  refine (typeParameters_reads (havoids.mono (by simp))).bind_eq <|
    (sees_passes (havoids "(" (by simp))).bind_eq ?_
  refine (supertypeClauses_reads header).bind_eq ?_
  have hpermits : Reads setting depth permitsClause
      (.operator "\x7b" :: (header.constantWords (!ms.isEmpty) ++
        (MemberSketch.wordsIn name ms ++ (.operator "\x7d" :: view))))
      (.operator "\x7b" :: (header.constantWords (!ms.isEmpty) ++
        (MemberSketch.wordsIn name ms ++ (.operator "\x7d" :: view)))) fun _ => True := by
    refine state_reads.bind fun s hs => ?_
    rw [hs.seesName]
    exact .pure trivial
  refine hpermits.bind fun _ _ => (typeBody_reads sub hsub header name ms hdepth).bind
    fun found hfound => spanFrom_reads.bind fun span _ => .pure ?_
  rw [TypeDecl.bare, Member.bareAll_eq, hfound, TypeSketch.decl]
  rfl

/-! ### The levels of nesting -/

/-- **Types are read at every level**, if as many more levels may be opened as they are nested
deep. -/
theorem nestedAt_reads (depth levels : Nat) (h : depth + levels ≤ maxNesting) :
    (nestedAt levels).ReadsTypes setting depth levels := by
  induction levels generalizing depth with
  | zero =>
      rintro ⟨_, _, _, _⟩ _ _ hdepth
      rw [TypeSketch.depth] at hdepth
      omega
  | succ levels ih =>
      intro t start view hdepth
      exact guarded_reads (by omega)
        (typeDeclBody_reads _ (ih (depth + 1) (by omega)) t start hdepth)

/-! ### Units -/

theorem packageDecl_reads (name : DottedName) :
    Reads setting depth packageDecl (.keyword "package" :: (name.words ++ (.operator ";" :: view)))
      view (·.bare = { name := name.text, span := {} }) :=
  (expect_reads (by decide)).bind fun _ _ => (qualifiedName_reads name rfl).bind_eq <|
    (expect_reads (by decide)).bind fun _ _ => spanFrom_reads.bind fun _ _ => .pure rfl

theorem packageClause_reads (package : Option DottedName) (h : Avoids ["package"] view) :
    Reads setting depth packageClause (UnitSketch.packageWords package ++ view) view
      (·.map PackageDecl.bare = package.map fun name => { name := name.text, span := {} }) := by
  cases package with
  | none => exact (sees_passes (h "package" (by simp))).bind_eq (.pure rfl)
  | some name =>
      simp only [UnitSketch.packageWords, List.cons_append, List.append_assoc, List.nil_append]
      refine (sees_reads (by decide)).bind_eq ?_
      refine (orRecover_reads (packageDecl_reads name)).mono fun found hfound => ?_
      obtain ⟨decl, rfl, hdecl⟩ := hfound
      rw [Option.map_some, hdecl]
      rfl

theorem importDecl_reads (i : ImportSketch) :
    Reads setting depth importDecl (i.words ++ view) view (·.bare = i.decl) := by
  obtain ⟨name, isStatic, onDemand⟩ := i
  simp only [ImportSketch.words, List.append_assoc, List.cons_append, List.nil_append]
  have hname : Reads setting depth qualifiedName
      (name.words ++ (wordsIf onDemand [.operator ".", .operator "*"] ++ (.operator ";" :: view)))
      (wordsIf onDemand [.operator ".", .operator "*"] ++ (.operator ";" :: view))
      (· = name.text) := by
    cases onDemand with
    | true => exact qualifiedName_reads name rfl
    | false => exact qualifiedName_reads name rfl
  have hstar : Reads setting depth onDemandStar
      (wordsIf onDemand [.operator ".", .operator "*"] ++ (.operator ";" :: view))
      (.operator ";" :: view) (· = onDemand) := by
    refine state_reads.bind fun s hs => ?_
    rw [State.seesPair, hs.sees, hs.seesSecond]
    cases onDemand with
    | true => exact skip_two_reads.bind fun _ _ => .pure rfl
    | false => exact .pure rfl
  exact (expect_reads (by decide)).bind fun _ _ =>
    (accept_flag isStatic (by decide) rfl).bind_eq <| hname.bind_eq <|
    hstar.bind_eq <| (expect_reads (by decide)).bind fun _ _ =>
    spanFrom_reads.bind fun _ _ => .pure rfl

theorem importClauses_reads (imports : List ImportSketch) (h : Avoids ["import"] view) :
    Reads setting depth importClauses (imports.flatMap ImportSketch.words ++ view) view
      (·.map ImportDecl.bare = imports.map ImportSketch.decl) := by
  refine Repeats.gather (Repeats.items _ _ _ (fun _ => True) (fun i _ later _ => ?_)
    (fun _ _ => nofun) (fun _ _ _ _ => trivial) trivial ?_)
  · refine (sees_reads (by decide)).bind_eq ?_
    refine (orRecover_reads (importDecl_reads i)).bind fun found hfound => ?_
    obtain ⟨decl, rfl, hdecl⟩ := hfound
    exact .pure ⟨decl, rfl, hdecl⟩
  · exact (sees_passes (h "import" (by simp))).bind_eq (.pure rfl)

/-- A type begins with a modifier, or with what introduces it. -/
theorem TypeSketch.words_avoid (t : TypeSketch) (view : List Token) : t.words ≠ [] ∧
    Avoids [";", "package", "import"] (t.words ++ view) ∧
    State.seesAnnotation { rest := t.words ++ view } = false := by
  obtain ⟨hends, hdecl, havoids⟩ := t.tailWords_ahead view
  rw [t.words_eq, List.append_assoc]
  refine ⟨?_, avoids_modifiers _ (by decide) (havoids.mono (by simp)), ?_⟩
  · obtain ⟨_, header, _, _⟩ := t
    cases header <;> exact List.append_ne_nil_of_right_ne_nil _ nofun
  · cases t.modifiers with
    | nil => exact hends.annotation
    | cons m words => exact (m.avoids (by decide)).seesAnnotations

theorem topLevelType_reads (t : TypeSketch) (h : t.depth ≤ maxNesting) :
    Reads setting 0 topLevelType (t.words ++ view) view (·.bare = t.decl setting.diet) := by
  rw [t.words_eq, List.append_assoc]
  refine here_reads.bind fun start _ => (modifiers_reads _ (t.tailWords_ahead view).1).bind_eq ?_
  exact nestedAt_reads 0 maxNesting (Nat.le_of_eq (Nat.zero_add _)) t start view h

theorem topLevelTypes_reads (types : List TypeSketch) (h : ∀ t ∈ types, t.depth ≤ maxNesting) :
    Reads setting 0 topLevelTypes (types.flatMap TypeSketch.words) []
      (·.map TypeDecl.bare = types.map (TypeSketch.decl setting.diet)) := by
  rw [← List.append_nil (types.flatMap TypeSketch.words)]
  refine Repeats.gather (Repeats.items _ _ _ (fun _ => True) (fun t ht later _ => ?_)
    (fun t _ => (t.words_avoid []).1) (fun _ _ _ _ => trivial) trivial ?_)
  · obtain ⟨hne, havoids, -⟩ := t.words_avoid later
    refine state_reads.bind fun s hs => ?_
    rw [hs.isEmpty, if_neg (by simp [hne])]
    refine (accept_passes (havoids ";" (by simp))).bind_eq ?_
    exact orSkip_reads (topLevelType_reads t (h t ht))
  · refine state_reads.bind fun s hs => ?_
    rw [hs.isEmpty]
    exact .pure rfl

/-- **A unit is read.** -/
theorem compilationUnit_reads (setting : Setting) (u : UnitSketch)
    (h : ∀ t ∈ u.types, t.depth ≤ maxNesting) :
    Reads setting 0 compilationUnit u.words [] (·.bare = u.outline setting.diet) := by
  have htypes : Avoids ["package", "import"] (u.types.flatMap TypeSketch.words) ∧
      State.seesAnnotation { rest := u.types.flatMap TypeSketch.words } = false := by
    cases u.types with
    | nil => exact ⟨avoids_nil, rfl⟩
    | cons t types =>
        obtain ⟨-, havoids, hannotation⟩ := t.words_avoid (types.flatMap TypeSketch.words)
        exact ⟨havoids.mono (by simp), hannotation⟩
  have himports : Avoids ["package"]
        (u.imports.flatMap ImportSketch.words ++ u.types.flatMap TypeSketch.words) ∧
      State.seesAnnotation
        { rest := u.imports.flatMap ImportSketch.words ++ u.types.flatMap TypeSketch.words } =
        false := by
    cases u.imports with
    | nil => exact ⟨htypes.1.mono (by simp), htypes.2⟩
    | cons i imports => exact ⟨avoids_keyword.2 (by decide), rfl⟩
  have hwords : State.seesAnnotation { rest := u.words } = false := by
    rw [UnitSketch.words]
    cases u.package with
    | none => exact himports.2
    | some name => rfl
  refine here_reads.bind fun start _ =>
    (orReport_reads (annotations_reads hwords)).bind fun _ _ => ?_
  refine (packageClause_reads u.package himports.1).bind fun package hpackage => ?_
  refine (importClauses_reads u.imports (htypes.1.mono (by simp))).bind fun imports himports => ?_
  refine (topLevelTypes_reads u.types h).bind fun types htypes => ?_
  refine spanFrom_reads.bind fun span _ => .pure ?_
  rw [Outline.bare, UnitSketch.outline, hpackage, himports, htypes]

/-- **The tokens of a sketch give its outline**, wherever the tokens stand: they are parsed without an
error up to the end, and what is read is the outline of the sketch up to places; on a diet each empty
body waits.  So it is for every source with these tokens. -/
theorem sketch_parses (u : UnitSketch) (h : ∀ t ∈ u.types, t.depth ≤ maxNesting) (diet : Bool) :
    (∀ (tokens : List Token) (finish : Position), tokens.map Token.bare = u.words →
      ∃ outline s, compilationUnit { diet, finish, total := tokens.length } { rest := tokens } =
          .ok outline s ∧
        s.rest = [] ∧ s.errors = #[] ∧ outline.bare = u.outline diet) ∧
    ∀ source : String, (Scan.ofText source).errors = [] →
      (Scan.ofText source).tokens.map Token.bare = u.words →
      (Outline.parse source diet).errors = [] ∧
        (Outline.parse source diet).outline.bare = u.outline diet := by
  have hread (tokens : List Token) (finish : Position) (htokens : tokens.map Token.bare = u.words) :
      ∃ outline s, compilationUnit { diet, finish, total := tokens.length } { rest := tokens } =
          .ok outline s ∧
        s.rest = [] ∧ s.errors = #[] ∧ outline.bare = u.outline diet := by
    obtain ⟨outline, s, hok, hs, houtline⟩ := compilationUnit_reads
      { diet, finish, total := tokens.length } u h { rest := tokens }
      ⟨rfl, rfl, Nat.zero_add _, htokens⟩
    exact ⟨outline, s, hok, List.map_eq_nil_iff.1 hs.view, hs.silent, houtline⟩
  refine ⟨hread, fun source herrors htokens => ?_⟩
  obtain ⟨outline, s, hok, -, hsilent, houtline⟩ := hread _ (Scan.ofText source).finish htokens
  rw [Outline.parse_of_ok hok, herrors, hsilent]
  exact ⟨rfl, houtline⟩

/-- An enum with members: an initializer, a constructor with the name of the enum, and a class with a
field of two variables and a method. -/
def enumSketch : UnitSketch :=
  let name (text : String) (h : text ∉ contextualWords) : PlainName := ⟨text, h⟩
  let int : TypeWord := .primitive "int" (by decide)
  { imports := [{ name := { first := name "a" (by decide) }, isStatic := true, onDemand := true }]
    types :=
      [.mk [] (.enumType [.name (name "I" (by decide))] [name "X" (by decide)])
        (name "E" (by decide))
        [.initializer true,
         .constructor []
          { parameters := [{ modifiers := [⟨"final", by decide⟩], type := int, varargs := true
                             name := name "n" (by decide) }]
            hasBody := true },
         .type (.mk [⟨"static", by decide⟩] (.classType none []) (name "C" (by decide))
          [.field [] int (name "a" (by decide)) [name "b" (by decide)],
           .method [] int (name "m" (by decide)) { hasBody := false }])]] }

/-- A source with the tokens of the enum is read as the enum, on a diet with two bodies that wait. -/
theorem sketch_parses_enum :
    let source := "import static a.*;enum E implements I\x7bX;static\x7b\x7d" ++
      "E(final int...n)\x7b\x7dstatic class C\x7bint a,b;int m();\x7d\x7d"
    (Scan.ofText source).tokens.map Token.bare = enumSketch.words ∧
      (Outline.parse source true).errors = [] ∧
      (Outline.parse source true).outline.bare = enumSketch.outline true := by
  intro source
  have htokens : (Scan.ofText source).tokens.map Token.bare = enumSketch.words := by decide +kernel
  exact ⟨htokens, (sketch_parses enumSketch (by decide +kernel) true).2 source (by decide +kernel)
    htokens⟩

end JavaOutline
