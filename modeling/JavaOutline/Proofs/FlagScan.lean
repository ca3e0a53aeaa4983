/-
**What is left of a command line without its verbosity flags.**

The search for flags goes through the arguments from left to right.  A flag that carries its level in
the next argument takes that argument along, whatever it is: a source, or the flag once more.  So what
is a flag is not known from an argument alone.  A command line is split in exactly one way into
arguments that stay and flags with what they carry, and this split says everything: whether the search
succeeds, what it leaves, which level it sets, and which flag it rejects.

Main definitions:

* `CommandPart` — an argument that stays, or a flag with what it carries;
* `FlagStyle.Splits` — a command line is made of parts;
* `CommandPart.Proper`, `CommandPart.fault?` — flags that carry a level, and what is wrong with others;
* `levelAfter` — the level that parts set.

Main results:

* `CommandPart.proper_flag_iff`, `CommandPart.level?_flag_eq_some_iff` — a flag carries a level if its
  text writes one;
* `FlagStyle.exists_splits`, `FlagStyle.Splits.unique` — a command line has exactly one split;
* `FlagStyle.Splits.value_eq` — **the search, by the split of the command line**;
* `filterArguments_splits` — when it succeeds, what it leaves and sets, and what it rejects.
-/

import Mathlib.Data.List.TakeWhile
import JavaOutline.Proofs.RepeatedRun
import JavaOutline.Proofs.WrittenLevels

set_option autoImplicit false

namespace JavaOutline

/-! ### Parts of a command line -/

/-- A part of a command line. -/
inductive CommandPart where
  /-- An argument that is no flag. -/
  | plain (argument : String)
  /-- A flag with the text that it carries; behind the last argument there is none. -/
  | flag (argument : String) (payload : Option String)
deriving DecidableEq, Repr

namespace CommandPart

/-- The argument that stays. -/
def plain? : CommandPart → Option String
  | .plain argument => some argument
  | .flag _ _ => none

/-- The level that a flag carries. -/
def level? : CommandPart → Option Nat
  | .plain _ => none
  | .flag _ payload => payload.bind verbosityLevel?

/-- A flag carries a level. -/
def Proper : CommandPart → Prop
  | .plain _ => True
  | .flag _ payload => ∃ text level, payload = some text ∧ verbosityLevel? text = some level

/-- What is wrong with a flag that carries no level. -/
def fault? : CommandPart → Option ConfigError
  | .plain _ => none
  | .flag argument none => some (.missingValue argument)
  | .flag argument (some text) =>
      if (verbosityLevel? text).isSome then none else some (.invalidVerbosity argument text)

/-- The arguments that a part is made of. -/
def arguments (form : FlagForm) : CommandPart → List String
  | .plain argument => [argument]
  | .flag argument payload =>
      match form with
      | .equals => [argument]
      | .separate => argument :: payload.toList

/-- A flag is proper exactly if nothing is wrong with it. -/
theorem fault?_eq_none_iff (part : CommandPart) : part.fault? = none ↔ part.Proper := by
  cases part with
  | plain argument => simp [fault?, Proper]
  | flag argument payload =>
      cases payload with
      | none => simp [fault?, Proper]
      | some text => simp [fault?, Proper, Option.isSome_iff_exists]

/-- The level of a flag is the one that its text writes. -/
theorem level?_flag_eq_some_iff {argument : String} {payload : Option String} {level : Nat} :
    (flag argument payload).level? = some level ↔
      ∃ text, payload = some text ∧ WritesLevel text level := by
  simp only [level?, Option.bind_eq_some_iff, verbosityLevel?_eq_some_iff]

/-- **A flag is proper exactly if it carries a text that writes a level.** -/
theorem proper_flag_iff {argument : String} {payload : Option String} :
    (flag argument payload).Proper ↔ ∃ text level, payload = some text ∧ WritesLevel text level := by
  simp only [Proper, verbosityLevel?_eq_some_iff]

end CommandPart

/-! ### Splits -/

namespace FlagStyle

/-- An argument is a flag that carries a text itself: the bare flag carries an empty one. -/
def Carries (style : FlagStyle) (argument payload : String) : Prop :=
  argument = style.name ∧ payload = "" ∨ argument = style.name ++ "=" ++ payload

/-- The search takes an argument that it comes to for a flag. -/
def Marks (style : FlagStyle) (argument : String) : Prop :=
  match style.form with
  | .equals => ∃ payload, style.Carries argument payload
  | .separate => argument = style.name

/-- A command line is made of parts, from left to right. -/
inductive Splits (style : FlagStyle) : List String → List CommandPart → Prop
  | nil : Splits style [] []
  | plain {argument : String} {rest : List String} {parts : List CommandPart}
      (hplain : ¬ style.Marks argument) (h : Splits style rest parts) :
      Splits style (argument :: rest) (.plain argument :: parts)
  /-- The text stands in the argument. -/
  | inline {argument payload : String} {rest : List String} {parts : List CommandPart}
      (hform : style.form = .equals) (hcarries : style.Carries argument payload)
      (h : Splits style rest parts) :
      Splits style (argument :: rest) (.flag argument (some payload) :: parts)
  /-- The text is the next argument. -/
  | separate {argument payload : String} {rest : List String} {parts : List CommandPart}
      (hform : style.form = .separate) (hname : argument = style.name)
      (h : Splits style rest parts) :
      Splits style (argument :: payload :: rest) (.flag argument (some payload) :: parts)
  /-- There is no next argument. -/
  | missing {argument : String} (hform : style.form = .separate) (hname : argument = style.name) :
      Splits style [argument] [.flag argument none]

section

variable {style : FlagStyle} {argument payload : String} {arguments : List String}
  {parts other : List CommandPart}

/-- What an argument carries is what is found in it. -/
theorem inline?_eq_some_iff : style.inline? argument = some payload ↔ style.Carries argument payload := by
  have hbehind : (Text.behind? argument style.name).bind (Text.behind? · "=") = some payload ↔
      argument = style.name ++ "=" ++ payload := by
    simp [Option.bind_eq_some_iff, Text.behind?_eq_some_iff, String.append_assoc]
  unfold inline? Carries
  split
  · rename_i hname
    have hlonger : style.name ≠ style.name ++ "=" ++ payload := by
      intro h
      have hlength := congrArg String.length h
      simp only [String.length_append] at hlength
      have : "=".length = 1 := rfl
      omega
    rw [hname]
    simp [hlonger, eq_comm]
  · rename_i hname
    rw [hbehind]
    simp [hname]

/-- An argument carries one text. -/
theorem Carries.unique {text : String} (h : style.Carries argument payload)
    (h' : style.Carries argument text) : payload = text := by
  rw [← inline?_eq_some_iff] at h h'
  exact Option.some.inj (h.symm.trans h')

theorem isFlag_iff : style.isFlag argument = true ↔ style.Marks argument := by
  unfold isFlag Marks
  cases style.form with
  | equals => simp [Option.isSome_iff_exists, inline?_eq_some_iff]
  | separate => simp

theorem marks_of_carries (hform : style.form = .equals) (h : style.Carries argument payload) :
    style.Marks argument := by
  rw [Marks, hform]
  exact ⟨payload, h⟩

theorem marks_of_name (hform : style.form = .separate) (h : argument = style.name) :
    style.Marks argument := by
  rw [Marks, hform]
  exact h

/-- **Every command line has a split.** -/
theorem exists_splits (style : FlagStyle) :
    (arguments : List String) → ∃ parts, style.Splits arguments parts
  | [] => ⟨[], .nil⟩
  | argument :: rest => by
      by_cases hmarks : style.Marks argument
      · cases hform : style.form with
        | equals =>
            rw [Marks, hform] at hmarks
            obtain ⟨payload, hcarries⟩ := hmarks
            obtain ⟨parts, h⟩ := exists_splits style rest
            exact ⟨_, .inline hform hcarries h⟩
        | separate =>
            rw [Marks, hform] at hmarks
            cases rest with
            | nil => exact ⟨_, .missing hform hmarks⟩
            | cons payload rest =>
                obtain ⟨parts, h⟩ := exists_splits style rest
                exact ⟨_, .separate hform hmarks h⟩
      · obtain ⟨parts, h⟩ := exists_splits style rest
        exact ⟨_, .plain hmarks h⟩

namespace Splits

/-- **A command line has one split.** -/
theorem unique (h : style.Splits arguments parts) (h' : style.Splits arguments other) :
    parts = other := by
  induction h generalizing other with
  | nil =>
      cases h'
      rfl
  | plain hplain _ ih =>
      cases h' with
      | plain _ h' => rw [ih h']
      | inline hform hcarries _ => exact absurd (marks_of_carries hform hcarries) hplain
      | separate hform hname _ => exact absurd (marks_of_name hform hname) hplain
      | missing hform hname => exact absurd (marks_of_name hform hname) hplain
  | inline hform hcarries _ ih =>
      cases h' with
      | plain hplain _ => exact absurd (marks_of_carries hform hcarries) hplain
      | inline _ hcarries' h' => rw [hcarries.unique hcarries', ih h']
      | separate hform' _ _ => exact absurd (hform.symm.trans hform') nofun
      | missing hform' _ => exact absurd (hform.symm.trans hform') nofun
  | separate hform hname _ ih =>
      cases h' with
      | plain hplain _ => exact absurd (marks_of_name hform hname) hplain
      | inline hform' _ _ => exact absurd (hform'.symm.trans hform) nofun
      | separate _ _ h' => rw [ih h']
  | missing hform hname =>
      cases h' with
      | plain hplain _ => exact absurd (marks_of_name hform hname) hplain
      | inline hform' _ _ => exact absurd (hform'.symm.trans hform) nofun
      | missing _ _ => rfl

/-- The parts make up the command line. -/
theorem arguments_eq (h : style.Splits arguments parts) :
    parts.flatMap (CommandPart.arguments style.form) = arguments := by
  induction h with
  | nil => rfl
  | plain _ _ ih =>
      rw [List.flatMap_cons, ih]
      rfl
  | inline hform _ _ ih =>
      rw [hform] at ih ⊢
      rw [List.flatMap_cons, ih]
      rfl
  | separate hform _ _ ih =>
      rw [hform] at ih ⊢
      rw [List.flatMap_cons, ih]
      rfl
  | missing hform _ =>
      rw [hform]
      rfl

/-- What stays is no flag, so it is split into arguments that stay. -/
theorem left (h : style.Splits arguments parts) :
    style.Splits (parts.filterMap CommandPart.plain?)
      ((parts.filterMap CommandPart.plain?).map .plain) := by
  induction h with
  | nil => exact .nil
  | plain hplain _ ih => exact .plain hplain ih
  | inline _ _ _ ih => exact ih
  | separate _ _ _ ih => exact ih
  | missing _ _ => exact .nil

end Splits

end

end FlagStyle

/-! ### The search -/

/-- What is left of parts: the arguments that stay, unless something is wrong with a flag. -/
def argumentsLeft (parts : List CommandPart) : Except ConfigError (List String) :=
  match parts.findSome? CommandPart.fault? with
  | some fault => .error fault
  | none => .ok (parts.filterMap CommandPart.plain?)

/-- The level after parts: that of the last flag in front of the first one with a fault. -/
def levelAfter (parts : List CommandPart) (level : Nat) : Nat :=
  ((parts.takeWhile fun part => part.fault?.isNone).filterMap CommandPart.level?).getLastD level

section

variable {parts : List CommandPart}

theorem argumentsLeft_plain (argument : String) (parts : List CommandPart) :
    argumentsLeft (.plain argument :: parts) = (argumentsLeft parts).map (argument :: ·) := by
  unfold argumentsLeft
  rw [List.findSome?_cons_of_isNone (by rfl)]
  cases parts.findSome? CommandPart.fault? <;> rfl

theorem argumentsLeft_flag {argument payload : String} {level : Nat}
    (h : verbosityLevel? payload = some level) (parts : List CommandPart) :
    argumentsLeft (.flag argument (some payload) :: parts) = argumentsLeft parts := by
  have hfault : (CommandPart.flag argument (some payload)).fault? = none := by
    simp [CommandPart.fault?, h]
  unfold argumentsLeft
  rw [List.findSome?_cons, hfault]
  rfl

theorem levelAfter_flag {argument payload : String} {level : Nat}
    (h : verbosityLevel? payload = some level) (parts : List CommandPart) (before : Nat) :
    levelAfter (.flag argument (some payload) :: parts) before = levelAfter parts level := by
  have hfault : (CommandPart.flag argument (some payload)).fault? = none := by
    simp [CommandPart.fault?, h]
  have hlevel : (CommandPart.flag argument (some payload)).level? = some level := by
    simp [CommandPart.level?, h]
  unfold levelAfter
  rw [List.takeWhile_cons, hfault, Option.isNone_none, if_pos rfl, List.filterMap_cons_some hlevel,
    List.getLastD_cons]

/-- A flag with a fault ends the search. -/
theorem argumentsLeft_fault {part : CommandPart} {fault : ConfigError} (h : part.fault? = some fault)
    (parts : List CommandPart) (level : Nat) :
    argumentsLeft (part :: parts) = .error fault ∧ levelAfter (part :: parts) level = level := by
  constructor
  · unfold argumentsLeft
    rw [List.findSome?_cons, h]
  · unfold levelAfter
    rw [List.takeWhile_cons, h]
    rfl

/-- Where the search succeeds: nothing is wrong with any flag. -/
theorem argumentsLeft_eq_ok {remaining : List String} (h : argumentsLeft parts = .ok remaining) :
    (∀ part ∈ parts, part.fault? = none) ∧ remaining = parts.filterMap CommandPart.plain? := by
  unfold argumentsLeft at h
  split at h
  · cases h
  · rename_i hnone
    refine ⟨List.findSome?_eq_none_iff.1 hnone, ?_⟩
    exact (Except.ok.inj h).symm

/-- Where the search fails: the first flag with a fault. -/
theorem argumentsLeft_eq_error {fault : ConfigError} (h : argumentsLeft parts = .error fault) :
    ∃ front flag back, parts = front ++ flag :: back ∧ (∀ part ∈ front, part.fault? = none) ∧
      flag.fault? = some fault := by
  unfold argumentsLeft at h
  split at h
  · rename_i found hfound
    obtain rfl := Except.error.inj h
    obtain ⟨front, flag, back, hparts, hflag, hfront⟩ := List.findSome?_eq_some_iff.1 hfound
    exact ⟨front, flag, back, hparts, hfront, hflag⟩
  · cases h

end

/-- How the search goes on behind a flag with a text, if what it leaves of the rest is known. -/
theorem value_of_flag {style : FlagStyle} {arguments rest : List String} {argument payload : String}
    {parts : List CommandPart} {session : Session}
    (hflag : (session.filterArguments style arguments).value =
      match verbosityLevel? payload with
      | none => (.error (.invalidVerbosity argument payload), session)
      | some level => (({ session with verbosity := level } : Session).filterArguments style rest).value)
    (hrest : ∀ session : Session, (session.filterArguments style rest).value =
      (argumentsLeft parts, { session with verbosity := levelAfter parts session.verbosity })) :
    (session.filterArguments style arguments).value =
      (argumentsLeft (.flag argument (some payload) :: parts),
        { session with
          verbosity := levelAfter (.flag argument (some payload) :: parts) session.verbosity }) := by
  rw [hflag]
  cases hlevel : verbosityLevel? payload with
  | some level => simp only [hrest, argumentsLeft_flag hlevel, levelAfter_flag hlevel]
  | none =>
      have hfault : (CommandPart.flag argument (some payload)).fault? =
          some (.invalidVerbosity argument payload) := by
        simp [CommandPart.fault?, hlevel]
      obtain ⟨hleft, hsame⟩ := argumentsLeft_fault hfault parts session.verbosity
      rw [hleft, hsame]

/-- **The search, by the split of the command line.** -/
theorem FlagStyle.Splits.value_eq {style : FlagStyle} {arguments : List String}
    {parts : List CommandPart} (h : style.Splits arguments parts) (session : Session) :
    (session.filterArguments style arguments).value =
      (argumentsLeft parts, { session with verbosity := levelAfter parts session.verbosity }) := by
  induction h generalizing session with
  | nil => rfl
  | plain hplain _ ih =>
      rw [filterArguments_plain (by rwa [← Bool.not_eq_true, isFlag_iff]), ih, argumentsLeft_plain]
      rfl
  | @inline argument payload rest parts hform hcarries _ ih =>
      refine value_of_flag ?_ ih
      rw [Session.filterArguments.eq_def]
      simp only [hform, inline?_eq_some_iff.2 hcarries, Logged.value_bind, value_applyFlag]
      cases verbosityLevel? payload <;> rfl
  | @separate argument payload rest parts hform hname _ ih =>
      refine value_of_flag ?_ ih
      rw [Session.filterArguments.eq_def]
      simp only [hform, if_pos hname, Logged.value_bind, value_applyFlag]
      cases verbosityLevel? payload <;> rfl
  | missing hform hname =>
      rw [Session.filterArguments.eq_def]
      simp only [hform, if_pos hname]
      rfl

/-- What is left is left again, and sets no level. -/
theorem FlagStyle.Splits.value_again {style : FlagStyle} {arguments : List String}
    {parts : List CommandPart} (h : style.Splits arguments parts) (session : Session) :
    (session.filterArguments style (parts.filterMap CommandPart.plain?)).value =
      (.ok (parts.filterMap CommandPart.plain?), session) := by
  rw [h.left.value_eq]
  generalize parts.filterMap CommandPart.plain? = remaining
  have hleft : argumentsLeft (remaining.map .plain) = .ok remaining := by
    induction remaining with
    | nil => rfl
    | cons argument remaining ih => rw [List.map_cons, argumentsLeft_plain, ih]; rfl
  have hlevel : levelAfter (remaining.map .plain) session.verbosity = session.verbosity := by
    unfold levelAfter
    rw [List.filterMap_eq_nil_iff.2]
    · rfl
    · intro part hpart
      obtain ⟨argument, -, rfl⟩ := List.mem_map.1 ((List.takeWhile_sublist _).subset hpart)
      rfl
  rw [hleft, hlevel]

/-- **The search for verbosity flags.**  A command line is made of parts in exactly one way.  The search
succeeds exactly if every flag carries a level.  Then it leaves the arguments that are no part of a
flag, in order, among which no flag is found again, and sets the level of the last flag, and nothing
else.  Otherwise it names the first flag that carries no level. -/
theorem filterArguments_splits (style : FlagStyle) (session : Session) (arguments : List String) :
    (∃! parts, style.Splits arguments parts) ∧
    ∀ parts, style.Splits arguments parts →
      parts.flatMap (CommandPart.arguments style.form) = arguments ∧
      ((∃ remaining, (session.filterArguments style arguments).value.1 = .ok remaining) ↔
        ∀ part ∈ parts, part.Proper) ∧
      (∀ remaining, (session.filterArguments style arguments).value.1 = .ok remaining →
        remaining = parts.filterMap CommandPart.plain? ∧
        (session.filterArguments style arguments).value.2 =
          { session with
            verbosity := (parts.filterMap CommandPart.level?).getLastD session.verbosity } ∧
        ∀ other : Session, (other.filterArguments style remaining).value = (.ok remaining, other)) ∧
      ∀ fault, (session.filterArguments style arguments).value.1 = .error fault →
        ∃ front flag payload back, parts = front ++ .flag flag payload :: back ∧
          (∀ part ∈ front, part.Proper) ∧
          ((payload = none ∧ fault = .missingValue flag) ∨
            ∃ text, payload = some text ∧ verbosityLevel? text = none ∧
              fault = .invalidVerbosity flag text) := by
  constructor
  · obtain ⟨parts, h⟩ := style.exists_splits arguments
    exact ⟨parts, h, fun other hother => hother.unique h⟩
  intro parts h
  rw [h.value_eq session]
  refine ⟨h.arguments_eq, ⟨?_, ?_⟩, ?_, ?_⟩
  · rintro ⟨remaining, hok⟩ part hpart
    exact part.fault?_eq_none_iff.1 ((argumentsLeft_eq_ok hok).1 part hpart)
  · intro hproper
    refine ⟨parts.filterMap CommandPart.plain?, ?_⟩
    have hnone : parts.findSome? CommandPart.fault? = none :=
      List.findSome?_eq_none_iff.2 fun part hpart => part.fault?_eq_none_iff.2 (hproper part hpart)
    simp only [argumentsLeft, hnone]
  · intro remaining hok
    obtain ⟨hnone, rfl⟩ := argumentsLeft_eq_ok hok
    have hall : (parts.takeWhile fun part => part.fault?.isNone) = parts :=
      List.takeWhile_eq_self_iff.2 fun part hpart => by rw [hnone part hpart]; rfl
    refine ⟨rfl, ?_, h.value_again⟩
    simp only [levelAfter, hall]
  · intro fault herror
    obtain ⟨front, part, back, hparts, hfront, hpart⟩ := argumentsLeft_eq_error herror
    have hproper : ∀ part ∈ front, part.Proper :=
      fun part hmem => part.fault?_eq_none_iff.1 (hfront part hmem)
    cases part with
    | plain argument => cases hpart
    | flag flag payload =>
        refine ⟨front, flag, payload, back, hparts, hproper, ?_⟩
        cases payload with
        | none => exact .inl ⟨rfl, (Option.some.inj hpart).symm⟩
        | some text =>
            simp only [CommandPart.fault?] at hpart
            split at hpart
            · cases hpart
            · rename_i hlevel
              refine .inr ⟨text, rfl, ?_, (Option.some.inj hpart).symm⟩
              simpa using hlevel

/-- The flag takes the next argument along, with blanks around the level, and the source stays. -/
theorem filterArguments_splits_separate :
    let style : FlagStyle := { name := "-v", form := .separate }
    let parts : List CommandPart := [.flag "-v" (some " 3 "), .plain "A.java"]
    style.Splits ["-v", " 3 ", "A.java"] parts ∧ (∀ part ∈ parts, part.Proper) ∧
    (({} : Session).filterArguments style ["-v", " 3 ", "A.java"]).value =
      (.ok ["A.java"], { verbosity := 3 }) := by
  intro style parts
  have hsplits : style.Splits ["-v", " 3 ", "A.java"] parts :=
    .separate rfl rfl (.plain (by simp [FlagStyle.Marks, style]) .nil)
  have hlevel : verbosityLevel? " 3 " = some 3 := by decide +kernel
  have hproper : ∀ part ∈ parts, part.Proper := by
    simp [parts, CommandPart.Proper, hlevel]
  obtain ⟨-, hiff, hleft, -⟩ :=
    (filterArguments_splits style {} ["-v", " 3 ", "A.java"]).2 parts hsplits
  obtain ⟨remaining, hremaining⟩ := hiff.2 hproper
  obtain ⟨rfl, hsession, -⟩ := hleft remaining hremaining
  refine ⟨hsplits, hproper, Prod.ext hremaining ?_⟩
  rw [hsession]
  simp [parts, List.filterMap_cons, CommandPart.level?, hlevel]

end JavaOutline
