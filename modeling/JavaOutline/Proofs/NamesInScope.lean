/-
**Which conflicts are seen.**

The index condenses what was recorded for a file into the names declared at the top level and the
qualifiers of the names imported one by one.  Only one qualifier is kept for a name, the one that is
imported last.  So the answer to a question is known from the outline that was recorded last for the
file, and it is the one that all imports together would give, unless the last import of the name names
the very type that is asked about and an earlier one names another.

Main definitions:

* `ImportDecl.Names` — an import of the one type with a qualifier and a name;
* `Outline.DeclaresElsewhere`, `Outline.Imports`, `Outline.ImportsLast` — the names in scope;
* `Outline.Sees` — another type is in scope under a name;
* `ConflictIndex.recordAll`, `lastRecorded` — recordings in order.

Main results:

* `ImportDecl.singleType?_eq_some_iff` — what is condensed is what the imports say;
* `FileScope.conflictsWith_iff` — a conflict, in terms of the outline;
* `ConflictIndex.scope?_recordAll` — the scope after any recordings;
* `ConflictIndex.hasConflict_recordAll` — **which conflicts are seen, and on which orders the answer
  depends**.
-/

import Mathlib.Data.List.Induction
import Mathlib.Data.List.Nodup
import Mathlib.Data.List.Perm.Basic
import JavaOutline.ConflictIndex
import JavaOutline.Outline.Declarations

set_option autoImplicit false

namespace JavaOutline

/-! ### The last element with a property -/

/-- An element is the last one of a list with a property. -/
def LastWith {α : Type} (p : α → Prop) (xs : List α) (x : α) : Prop :=
  ∃ before after, xs = before ++ x :: after ∧ p x ∧ ∀ later ∈ after, ¬ p later

section

variable {α : Type} {p : α → Prop} {xs : List α} {x y : α}

theorem LastWith.mem (h : LastWith p xs x) : x ∈ xs := by
  obtain ⟨before, after, rfl, -⟩ := h
  exact List.mem_append_right _ List.mem_cons_self

theorem LastWith.holds (h : LastWith p xs x) : p x := by
  obtain ⟨-, -, -, hx, -⟩ := h
  exact hx

theorem not_lastWith_nil : ¬ LastWith p [] x := fun h => List.not_mem_nil h.mem

/-- The last element counts if it has the property, and the ones in front of it otherwise. -/
theorem lastWith_append_singleton :
    LastWith p (xs ++ [y]) x ↔ (p y ∧ x = y) ∨ (¬ p y ∧ LastWith p xs x) := by
  constructor
  · rintro ⟨before, after, hsplit, hx, hafter⟩
    rcases List.eq_nil_or_concat after with rfl | ⟨after, last, rfl⟩
    · obtain ⟨-, hlast⟩ := List.append_inj' hsplit rfl
      obtain rfl : y = x := by simpa using hlast
      exact .inl ⟨hx, rfl⟩
    · have hsplit' : xs ++ [y] = (before ++ x :: after) ++ [last] := by simpa using hsplit
      obtain ⟨rfl, hlast⟩ := List.append_inj' hsplit' rfl
      obtain rfl : y = last := by simpa using hlast
      exact .inr ⟨hafter y (by simp),
        before, after, rfl, hx, fun later hlater => hafter later (by simp [hlater])⟩
  · rintro (⟨hy, rfl⟩ | ⟨hy, before, after, rfl, hx, hafter⟩)
    · exact ⟨xs, [], rfl, hy, fun later hlater => absurd hlater List.not_mem_nil⟩
    · refine ⟨before, after ++ [y], by simp, hx, fun later hlater => ?_⟩
      rcases List.mem_append.1 hlater with hlater | hlater
      · exact hafter later hlater
      · rw [List.mem_singleton.1 hlater]
        exact hy

/-- There is one last element only. -/
theorem LastWith.unique (h : LastWith p xs x) (hy : LastWith p xs y) : x = y := by
  induction xs using List.reverseRecOn with
  | nil => exact absurd h not_lastWith_nil
  | append_singleton xs z ih =>
      rcases lastWith_append_singleton.1 h with ⟨hz, rfl⟩ | ⟨hz, h⟩ <;>
        rcases lastWith_append_singleton.1 hy with ⟨hz', rfl⟩ | ⟨hz', hy⟩
      · rfl
      · exact absurd hz hz'
      · exact absurd hz' hz
      · exact ih h hy

/-- An element with a property is not behind the last one. -/
theorem exists_lastWith (hmem : x ∈ xs) (hx : p x) : ∃ last, LastWith p xs last := by
  induction xs using List.reverseRecOn with
  | nil => exact absurd hmem List.not_mem_nil
  | append_singleton xs y ih =>
      by_cases hy : p y
      · exact ⟨y, lastWith_append_singleton.2 (.inl ⟨hy, rfl⟩)⟩
      · have hbefore : x ∈ xs := by
          rcases List.mem_append.1 hmem with h | h
          · exact h
          · exact absurd (List.mem_singleton.1 h ▸ hx) hy
        obtain ⟨last, hlast⟩ := ih hbefore
        exact ⟨last, lastWith_append_singleton.2 (.inr ⟨hy, hlast⟩)⟩

end

/-! ### The type that an import names -/

/-- A single import of a type: its name is the simple name behind the qualifier, or the simple name
alone for an empty qualifier. -/
structure ImportDecl.Names (i : ImportDecl) (qualifier name : String) : Prop where
  isType : i.isStatic = false
  single : i.onDemand = false
  simple : '.' ∉ name.toList
  written : (i.name = name ∧ qualifier = "") ∨ i.name = qualifier ++ "." ++ name

/-- A name without a dot has one part. -/
theorem nameParts_simple {name : String} (h : '.' ∉ name.toList) : nameParts name = [name] := by
  simp [nameParts, List.splitOn_eq_singleton h]

/-- The part behind the last dot is the last part. -/
theorem nameParts_qualified {qualifier name : String} (h : '.' ∉ name.toList) :
    nameParts (qualifier ++ "." ++ name) = nameParts qualifier ++ [name] := by
  have htext : (qualifier ++ "." ++ name).toList = qualifier.toList ++ '.' :: name.toList := by
    simp
  simp [nameParts, htext, List.splitOn_append_cons_self, List.splitOn_eq_singleton h]

/-- The parts of a name, with dots between them, are the name. -/
theorem intercalate_nameParts (name : String) : ".".intercalate (nameParts name) = name := by
  have hparts : (nameParts name).map String.toList = name.toList.splitOn '.' := by
    simp [nameParts, Function.comp_def]
  refine String.ext ?_
  rw [String.toList_intercalate, hparts]
  exact List.intercalate_splitOn '.'

/-- A name has no dot, or there is a last one. -/
theorem simple_or_qualified (text : String) :
    '.' ∉ text.toList ∨
      ∃ qualifier name, '.' ∉ name.toList ∧ text = qualifier ++ "." ++ name := by
  by_cases h : '.' ∈ text.toList
  · obtain ⟨after, before, hsplit, hafter⟩ :=
      List.eq_append_cons_of_mem (List.mem_reverse.2 h)
    refine .inr ⟨String.ofList before.reverse, String.ofList after.reverse, by simpa using hafter, ?_⟩
    refine String.ext ?_
    have := congrArg List.reverse hsplit
    simpa using this
  · exact .inl h

namespace ImportDecl

variable {i : ImportDecl} {qualifier name : String}

/-- What an import names, in terms of the parts of its name. -/
theorem Names.parts (h : i.Names qualifier name) :
    i.simpleName = some name ∧ i.qualifier = qualifier := by
  rcases h.written with ⟨hname, hqualifier⟩ | hname
  · simp [simpleName, ImportDecl.qualifier, h.single, hname, nameParts_simple h.simple, hqualifier]
  · simp [simpleName, ImportDecl.qualifier, h.single, hname, nameParts_qualified h.simple,
      intercalate_nameParts]

/-- **What is condensed is what the imports say.** -/
theorem singleType?_eq_some_iff :
    i.singleType? = some (name, qualifier) ↔ i.Names qualifier name := by
  constructor
  · intro h
    have hsort : (i.isStatic || i.onDemand) = false := by
      cases hsort : i.isStatic || i.onDemand with
      | false => rfl
      | true => simp [singleType?, hsort] at h
    obtain ⟨htype, hsingle⟩ := Bool.or_eq_false_iff.1 hsort
    obtain ⟨q, n, hnames⟩ : ∃ q n, i.Names q n := by
      rcases simple_or_qualified i.name with hsimple | ⟨q, n, hsimple, hname⟩
      · exact ⟨"", i.name, htype, hsingle, hsimple, .inl ⟨rfl, rfl⟩⟩
      · exact ⟨q, n, htype, hsingle, hsimple, .inr hname⟩
    obtain ⟨hsimple, hqualifier⟩ := hnames.parts
    simp only [singleType?, hsort, hsimple, hqualifier] at h
    simp at h
    obtain ⟨rfl, rfl⟩ := h
    exact hnames
  · intro h
    obtain ⟨hsimple, hqualifier⟩ := h.parts
    simp [singleType?, h.isType, h.single, hsimple, hqualifier]

/-- An import names one type only. -/
theorem Names.qualifier_unique {other : String} (h : i.Names qualifier name)
    (hother : i.Names other name) : qualifier = other :=
  h.parts.2.symm.trans hother.parts.2

end ImportDecl

/-! ### The names in scope -/

namespace Outline

variable {outline : Outline} {package name : String}

/-- A type of the name is declared at the top level, in another package. -/
def DeclaresElsewhere (outline : Outline) (package name : String) : Prop :=
  (∃ t ∈ outline.types, t.name = name) ∧ outline.packageName.getD "" ≠ package

/-- The type with the qualifier and the name is imported by itself. -/
def Imports (outline : Outline) (qualifier name : String) : Prop :=
  ∃ i ∈ outline.imports, i.Names qualifier name

/-- The last import of the name has the qualifier. -/
def ImportsLast (outline : Outline) (qualifier name : String) : Prop :=
  ∃ i, LastWith (fun i => ∃ q, i.Names q name) outline.imports i ∧ i.Names qualifier name

/-- Another type than `package.name` is declared or imported under the name. -/
def Sees (outline : Outline) (package name : String) : Prop :=
  outline.DeclaresElsewhere package name ∨ ∃ q, outline.Imports q name ∧ q ≠ package

/-- The name is imported both for the type `package.name` and for another one, and no declaration
settles the matter. -/
def Disputed (outline : Outline) (package name : String) : Prop :=
  ¬ outline.DeclaresElsewhere package name ∧ outline.Imports package name ∧
    ∃ q, outline.Imports q name ∧ q ≠ package

theorem ImportsLast.imports {qualifier : String} (h : outline.ImportsLast qualifier name) :
    outline.Imports qualifier name := by
  obtain ⟨i, hlast, hnames⟩ := h
  exact ⟨i, hlast.mem, hnames⟩

/-- A name that is imported is imported a last time. -/
theorem Imports.exists_last {qualifier : String} (h : outline.Imports qualifier name) :
    ∃ q, outline.ImportsLast q name := by
  obtain ⟨i, hmem, hnames⟩ := h
  obtain ⟨last, hlast⟩ := exists_lastWith (p := fun i => ∃ q, i.Names q name) hmem ⟨_, hnames⟩
  obtain ⟨q, hq⟩ := hlast.holds
  exact ⟨q, last, hlast, hq⟩

/-- What is imported does not depend on the order. -/
theorem imports_of_perm {imports : List ImportDecl} (h : imports.Perm outline.imports)
    (qualifier name : String) :
    Imports { outline with imports } qualifier name ↔ outline.Imports qualifier name := by
  simp only [Imports, h.mem_iff]

/-- In some order, a given import of a name is the last. -/
theorem Imports.exists_order {qualifier : String} (h : outline.Imports qualifier name) :
    ∃ imports : List ImportDecl, imports.Perm outline.imports ∧
      ImportsLast { outline with imports } qualifier name := by
  obtain ⟨i, hmem, hnames⟩ := h
  obtain ⟨before, after, hsplit⟩ := List.append_of_mem hmem
  refine ⟨(before ++ after) ++ [i], ?_, i, ?_, hnames⟩
  · rw [hsplit, List.append_assoc]
    have hlater : (after ++ [i]).Perm (i :: after) := List.perm_append_comm
    exact hlater.append_left before
  · exact lastWith_append_singleton.2 (.inl ⟨⟨_, hnames⟩, rfl⟩)

/-- An import of the name behind all others gives the qualifier. -/
theorem qualifier?_append_names {imports : List ImportDecl} {i : ImportDecl} {qualifier : String}
    (h : i.Names qualifier name) :
    (scope { outline with imports := imports ++ [i] }).qualifier? name = some qualifier := by
  simp [scope, FileScope.qualifier?, ImportDecl.singleType?_eq_some_iff.2 h]

/-- Any other import does not touch the qualifier. -/
theorem qualifier?_append_other {imports : List ImportDecl} {i : ImportDecl}
    (h : ¬ ∃ q, i.Names q name) :
    (scope { outline with imports := imports ++ [i] }).qualifier? name =
      (scope { outline with imports }).qualifier? name := by
  cases htype : i.singleType? with
  | none => simp [scope, FileScope.qualifier?, htype]
  | some pair =>
      have hne : pair.1 ≠ name := fun heq =>
        h ⟨pair.2, heq ▸ ImportDecl.singleType?_eq_some_iff.1 htype⟩
      simp [scope, FileScope.qualifier?, htype, hne]

/-- The qualifier that is kept for a name is the one of its last import. -/
theorem qualifier?_scope_eq_some_iff {qualifier : String} :
    outline.scope.qualifier? name = some qualifier ↔ outline.ImportsLast qualifier name := by
  suffices hall : ∀ imports, (scope { outline with imports }).qualifier? name = some qualifier ↔
      ImportsLast { outline with imports } qualifier name from hall outline.imports
  intro imports
  induction imports using List.reverseRecOn with
  | nil => simp [scope, FileScope.qualifier?, ImportsLast, not_lastWith_nil]
  | append_singleton imports i ih =>
      by_cases hnames : ∃ q, i.Names q name
      · obtain ⟨q, hq⟩ := hnames
        rw [qualifier?_append_names hq]
        constructor
        · rintro ⟨⟩
          exact ⟨i, lastWith_append_singleton.2 (.inl ⟨⟨_, hq⟩, rfl⟩), hq⟩
        · rintro ⟨last, hlast, hlastNames⟩
          rcases lastWith_append_singleton.1 hlast with ⟨-, rfl⟩ | ⟨hnot, -⟩
          · rw [hq.qualifier_unique hlastNames]
          · exact absurd ⟨_, hq⟩ hnot
      · rw [qualifier?_append_other hnames, ih]
        simp [ImportsLast, lastWith_append_singleton, hnames]

/-- A conflict, in terms of the outline. -/
theorem conflictsWith_scope_iff :
    outline.scope.conflictsWith package name = true ↔
      outline.DeclaresElsewhere package name ∨
        ∃ q, outline.ImportsLast q name ∧ q ≠ package := by
  simp only [← qualifier?_scope_eq_some_iff]
  unfold FileScope.conflictsWith
  rw [Bool.or_eq_true]
  refine or_congr ?_ ?_
  · simp [scope, DeclaresElsewhere]
  · cases outline.scope.qualifier? name with
    | none => simp
    | some q => simp

/-! ### Disputed names -/

/-- The conflict that is seen is the one that all imports together give, unless the name is disputed
and its last import names the type that is asked about. -/
theorem conflictsWith_scope_iff_sees :
    (outline.scope.conflictsWith package name = true ↔ outline.Sees package name) ↔
      ¬ (outline.Disputed package name ∧ outline.ImportsLast package name) := by
  rw [conflictsWith_scope_iff]
  constructor
  · rintro hagree ⟨⟨hdeclared, -, hother⟩, hlast⟩
    rcases hagree.2 (.inr hother) with h | ⟨q, hq, hne⟩
    · exact hdeclared h
    · rw [← qualifier?_scope_eq_some_iff] at hlast hq
      exact hne (Option.some.inj (hq.symm.trans hlast))
  · intro hnot
    refine ⟨fun h => h.imp_right fun ⟨q, hq, hne⟩ => ⟨q, hq.imports, hne⟩, fun h => ?_⟩
    by_cases hdeclared : outline.DeclaresElsewhere package name
    · exact .inl hdeclared
    · obtain ⟨q, hq, hne⟩ := h.resolve_left hdeclared
      obtain ⟨last, hlast⟩ := hq.exists_last
      refine .inr ⟨last, hlast, ?_⟩
      rintro rfl
      exact hnot ⟨⟨hdeclared, hlast.imports, q, hq, hne⟩, hlast⟩

/-- **The answer depends on the order of the imports exactly for a disputed name.** -/
theorem conflictsWith_scope_order_iff :
    (∀ imports : List ImportDecl, imports.Perm outline.imports →
      (scope { outline with imports }).conflictsWith package name =
        outline.scope.conflictsWith package name) ↔
      ¬ outline.Disputed package name := by
  constructor
  · rintro hsame ⟨hdeclared, hthis, q, hq, hne⟩
    -- with one of the two imports in the last place the answer is no, with the other it is yes
    obtain ⟨first, hfirst, hlast⟩ := hthis.exists_order
    obtain ⟨second, hsecond, hlast'⟩ := hq.exists_order
    have hyes : (scope { outline with imports := second }).conflictsWith package name = true :=
      conflictsWith_scope_iff.2 (.inr ⟨q, hlast', hne⟩)
    rw [hsame second hsecond, ← hsame first hfirst, conflictsWith_scope_iff] at hyes
    rcases hyes with h | ⟨other, hother, hne'⟩
    · exact hdeclared h
    · rw [← qualifier?_scope_eq_some_iff] at hlast hother
      exact hne' (Option.some.inj (hother.symm.trans hlast))
  · intro hnot imports hperm
    have hdisputed : Disputed { outline with imports } package name ↔
        outline.Disputed package name := by
      simp only [Disputed, imports_of_perm hperm]
      rfl
    have hsees : Sees { outline with imports } package name ↔ outline.Sees package name := by
      simp only [Sees, imports_of_perm hperm]
      rfl
    rw [Bool.eq_iff_iff, conflictsWith_scope_iff_sees.2 fun h => hnot h.1,
      conflictsWith_scope_iff_sees.2 fun h => hnot (hdisputed.1 h.1), hsees]

end Outline

/-! ### Recordings in order -/

/-- A recording is the last one of its file. -/
def RecordedLast (records : List (String × Outline)) (file : String) (outline : Outline) : Prop :=
  LastWith (fun record => record.1 = file) records (file, outline)

/-- Of distinct files, each recording is the last one of its file. -/
theorem recordedLast_iff_mem {records : List (String × Outline)}
    (h : (records.map Prod.fst).Nodup) {file : String} {outline : Outline} :
    RecordedLast records file outline ↔ (file, outline) ∈ records := by
  refine ⟨LastWith.mem, fun hmem => ?_⟩
  obtain ⟨last, hlast⟩ := exists_lastWith (p := fun record => record.1 = file) hmem rfl
  rwa [RecordedLast, List.inj_on_of_nodup_map h hmem hlast.mem hlast.holds.symm]

namespace ConflictIndex

/-- Records units in order. -/
def recordAll (index : ConflictIndex) (records : List (String × Outline)) : ConflictIndex :=
  records.foldl (fun index record => index.record record.1 record.2) index

variable {records others : List (String × Outline)} {file package name : String}

/-- **The scope of a file is the one recorded last.** -/
theorem scope?_recordAll {scope : FileScope} :
    (recordAll {} records).scope? file = some scope ↔
      ∃ outline, RecordedLast records file outline ∧ outline.scope = scope := by
  induction records using List.reverseRecOn with
  | nil => simp [recordAll, scope?, RecordedLast, not_lastWith_nil]
  | append_singleton records record ih =>
      obtain ⟨other, outline⟩ := record
      have hstep : recordAll {} (records ++ [(other, outline)]) =
          (recordAll {} records).record other outline := by
        simp [recordAll]
      rw [hstep, scope?_record]
      by_cases h : file = other
      · subst h
        simp [RecordedLast, lastWith_append_singleton]
      · simp [RecordedLast, lastWith_append_singleton, h, Ne.symm h, ih]

/-- A conflict with a file is one with what was recorded last for it. -/
theorem hasConflict_recordAll_iff :
    (recordAll {} records).hasConflict file package name = true ↔
      ∃ outline, RecordedLast records file outline ∧
        outline.scope.conflictsWith package name = true := by
  unfold hasConflict
  constructor
  · intro h
    cases hscope : (recordAll {} records).scope? file with
    | none => simp [hscope] at h
    | some scope =>
        obtain ⟨outline, hlast, rfl⟩ := scope?_recordAll.1 hscope
        exact ⟨outline, hlast, by simpa [hscope] using h⟩
  · rintro ⟨outline, hlast, hconflict⟩
    rw [scope?_recordAll.2 ⟨outline, hlast, rfl⟩]
    exact hconflict

/-- The answer for a file, once it is known what was recorded last for it. -/
theorem hasConflict_of_recordedLast {outline : Outline}
    (h : RecordedLast records file outline) :
    (recordAll {} records).hasConflict file package name =
      outline.scope.conflictsWith package name := by
  unfold hasConflict
  rw [scope?_recordAll.2 ⟨outline, h, rfl⟩]

/-- The order in which distinct files are recorded does not matter. -/
theorem hasConflict_perm (hdistinct : (records.map Prod.fst).Nodup) (h : others.Perm records) :
    (recordAll {} others).hasConflict file package name =
      (recordAll {} records).hasConflict file package name := by
  have hdistinct' : (others.map Prod.fst).Nodup := (h.map Prod.fst).nodup_iff.2 hdistinct
  rw [Bool.eq_iff_iff, hasConflict_recordAll_iff, hasConflict_recordAll_iff]
  simp only [recordedLast_iff_mem hdistinct, recordedLast_iff_mem hdistinct', h.mem_iff]

/-- The answer is the one of all imports exactly if it is so for what was recorded last. -/
theorem hasConflict_recordAll_iff_sees :
    ((recordAll {} records).hasConflict file package name = true ↔
        ∃ outline, RecordedLast records file outline ∧ outline.Sees package name) ↔
      ∀ outline, RecordedLast records file outline →
        ¬ (outline.Disputed package name ∧ outline.ImportsLast package name) := by
  rw [hasConflict_recordAll_iff]
  simp only [← Outline.conflictsWith_scope_iff_sees]
  constructor
  · intro h outline hlast
    have hunique (other : Outline) (hother : RecordedLast records file other) : other = outline :=
      congrArg Prod.snd (hother.unique hlast)
    constructor
    · intro hconflict
      obtain ⟨other, hother, hsees⟩ := h.1 ⟨outline, hlast, hconflict⟩
      exact hunique other hother ▸ hsees
    · intro hsees
      obtain ⟨other, hother, hconflict⟩ := h.2 ⟨outline, hlast, hsees⟩
      exact hunique other hother ▸ hconflict
  · intro h
    exact exists_congr fun outline => and_congr_right fun hlast => h outline hlast

/-- Recording the last outline again, with its imports in another order, changes no answer exactly
if the name is not disputed. -/
theorem hasConflict_reordered_iff {outline : Outline} (h : RecordedLast records file outline) :
    (∀ imports : List ImportDecl, imports.Perm outline.imports →
      (recordAll {} (records ++ [(file, { outline with imports })])).hasConflict file package name =
        (recordAll {} records).hasConflict file package name) ↔
      ¬ outline.Disputed package name := by
  have hagain (imports : List ImportDecl) :
      RecordedLast (records ++ [(file, { outline with imports })]) file
        { outline with imports } :=
    lastWith_append_singleton.2 (.inl ⟨rfl, rfl⟩)
  simp only [hasConflict_of_recordedLast (hagain _), hasConflict_of_recordedLast h]
  exact Outline.conflictsWith_scope_order_iff

/-- **Which conflicts are seen, and on which orders the answer depends.**  After any recordings,
there is a conflict exactly if the outline recorded last for the file declares the name elsewhere or
imports it last from elsewhere; this is what all imports of the outline together say, unless the name
is disputed and its last import names the type that is asked about.  The order in which distinct
files are recorded does not matter, and the order of the imports matters exactly for a disputed
name. -/
theorem hasConflict_recordAll (records : List (String × Outline)) (file package name : String) :
    ((recordAll {} records).hasConflict file package name = true ↔
      ∃ outline, RecordedLast records file outline ∧
        (outline.DeclaresElsewhere package name ∨
          ∃ q, outline.ImportsLast q name ∧ q ≠ package)) ∧
    (((recordAll {} records).hasConflict file package name = true ↔
        ∃ outline, RecordedLast records file outline ∧ outline.Sees package name) ↔
      ∀ outline, RecordedLast records file outline →
        ¬ (outline.Disputed package name ∧ outline.ImportsLast package name)) ∧
    ((records.map Prod.fst).Nodup → ∀ others : List (String × Outline), others.Perm records →
      (recordAll {} others).hasConflict file package name =
        (recordAll {} records).hasConflict file package name) ∧
    (∀ outline, RecordedLast records file outline →
      ((∀ imports : List ImportDecl, imports.Perm outline.imports →
        (recordAll {} (records ++ [(file, { outline with imports })])).hasConflict file package
          name = (recordAll {} records).hasConflict file package name) ↔
        ¬ outline.Disputed package name)) := by
  refine ⟨?_, hasConflict_recordAll_iff_sees, fun hdistinct others => hasConflict_perm hdistinct,
    fun outline => hasConflict_reordered_iff⟩
  rw [hasConflict_recordAll_iff]
  simp only [Outline.conflictsWith_scope_iff]

/-- Two files, recorded in either order: the second imports the type that the first declares. -/
theorem hasConflict_recordAll_two :
    let first := (Outline.parse "package p; class C \x7b \x7d" true).outline
    let second := (Outline.parse "import p.C; class B \x7b \x7d" true).outline
    let records := [("A.java", first), ("B.java", second)]
    (records.map Prod.fst).Nodup ∧ RecordedLast records "B.java" second ∧
      (recordAll {} records).hasConflict "B.java" "q" "C" = true ∧
      (recordAll {} records.reverse).hasConflict "B.java" "q" "C" = true ∧
      ∃ outline, RecordedLast records "B.java" outline ∧
        (outline.DeclaresElsewhere "q" "C" ∨ ∃ q, outline.ImportsLast q "C" ∧ q ≠ "q") := by
  intro first second records
  have hdistinct : (records.map Prod.fst).Nodup := by decide
  have hconflict : (recordAll {} records).hasConflict "B.java" "q" "C" = true := by decide +kernel
  obtain ⟨hexact, -, horder, -⟩ := hasConflict_recordAll records "B.java" "q" "C"
  exact ⟨hdistinct, (recordedLast_iff_mem hdistinct).2 (by simp [records]), hconflict,
    (horder hdistinct _ (List.reverse_perm records)).trans hconflict, hexact.1 hconflict⟩

/-- With two imports of the name, the type that the first one names is not seen when the second one
is asked about.  In the other order it is. -/
theorem overridden_import_unseen :
    let outline := (Outline.parse "import a.C; import b.C; class A \x7b \x7d" true).outline
    let swapped := { outline with imports := outline.imports.reverse }
    (RecordedLast [("A.java", outline)] "A.java" outline ∧ outline.Sees "b" "C" ∧
        (recordAll {} [("A.java", outline)]).hasConflict "A.java" "b" "C" = false) ∧
      swapped.imports.Perm outline.imports ∧
        (recordAll {} [("A.java", swapped)]).hasConflict "A.java" "b" "C" = true := by
  intro outline swapped
  have hfirst : ∃ i ∈ outline.imports, i.singleType? = some ("C", "a") := by decide +kernel
  obtain ⟨i, hmem, htype⟩ := hfirst
  have hsees : outline.Sees "b" "C" :=
    .inr ⟨"a", ⟨i, hmem, ImportDecl.singleType?_eq_some_iff.1 htype⟩, by decide⟩
  have hlast : RecordedLast [("A.java", outline)] "A.java" outline :=
    (recordedLast_iff_mem (by decide)).2 List.mem_cons_self
  exact ⟨⟨hlast, hsees, by decide +kernel⟩, List.reverse_perm _, by decide +kernel⟩

end ConflictIndex

end JavaOutline
