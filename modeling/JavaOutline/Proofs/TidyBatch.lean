/-
**What a batch without errors holds.**

What others see of a file are the types that it declares and what it refers to.  Both can be read off
its text, whatever else is in the batch and in whatever order the files come.  In a batch without
errors every unit shows what its file holds, and the types that are known are those that the files
declare, every one of them once.  A file can be added to such a batch without an error exactly if it
is sound by itself and declares nothing that is known.

Main definitions:

* `Request` — the files that a command line names, whatever their order, and how they are read;
* `Request.namesOf`, `Request.referencesOf` — what others see of a file;
* `Request.Sound` — the files that are named are sound by themselves, wherever they stand;
* `Completion.Adds` — a batch with one more source;
* `Request.Tidy` — a batch without errors that shows what its files hold.

Main results:

* `defineAll_eq_nil_iff` — types are entered without a problem exactly if they are new;
* `Request.Tidy.adds` — when a file can be added without an error;
* `Request.entered_clean_iff` — **the files of a command line can be entered without an error in any
  order or in none**;
* `Request.tidy_completeFrom` — a batch that is completed without errors is tidy.
-/

import Mathlib.Data.List.Flatten
import Mathlib.Data.List.Nodup
import Mathlib.Data.List.Perm.Basic
import JavaOutline.Proofs.CompletedOutline
import JavaOutline.Proofs.RepeatedSource

set_option autoImplicit false

namespace JavaOutline

/-! ### Names -/

/-- The names of the types that an outline declares. -/
def Outline.declaredNames (o : Outline) : List String := o.declaredTypes.map Prod.fst

/-- The names of the types that a unit declares, as far as its outline is at hand. -/
def CompilationUnit.declaredNames (unit : CompilationUnit) : List String :=
  unit.outline.elim [] Outline.declaredNames

/-- The names of the types in an index. -/
def TypeIndex.names (index : TypeIndex) : List String := index.bindings.map TypeBinding.name

theorem TypeIndex.knowsType_iff {index : TypeIndex} {name : String} :
    index.knowsType name = true ↔ name ∈ index.names := by
  simp [knowsType, find?, names, List.find?_isSome]

theorem TypeIndex.knowsPackage_iff {index : TypeIndex} {package : String} :
    index.knowsPackage package = true ↔
      ∃ name ∈ index.names, enclosingName? name = some package := by
  simp [knowsPackage, names]

/-- A type is entered if its name is new. -/
theorem TypeIndex.define_cases (index : TypeIndex) (binding : TypeBinding) :
    (binding.name ∈ index.names ∧ ∃ earlier, index.define binding = .error earlier) ∨
      (binding.name ∉ index.names ∧
        index.define binding = .ok { bindings := index.bindings ++ [binding] }) := by
  unfold define
  cases hfind : index.find? binding.name with
  | some earlier =>
      refine .inl ⟨knowsType_iff.1 (by simp [knowsType, hfind]), earlier, rfl⟩
  | none =>
      refine .inr ⟨fun hmem => ?_, rfl⟩
      have hknown := knowsType_iff.2 hmem
      simp [knowsType, hfind] at hknown

/-- Names settle a reference: one of them resolves it, or lies in the package that does. -/
def Reference.SettledBy (reference : Reference) (names : List String) : Prop :=
  (∃ candidate ∈ reference.candidates, candidate ∈ names) ∨
    ∃ package ∈ reference.package, ∃ name ∈ names, enclosingName? name = some package

instance (reference : Reference) (names : List String) : Decidable (reference.SettledBy names) :=
  inferInstanceAs (Decidable (_ ∨ _))

theorem Reference.settledBy_flatMap {α : Type} {reference : Reference} {items : List α}
    {names : α → List String} :
    reference.SettledBy (items.flatMap names) ↔
      ∃ item ∈ items, reference.SettledBy (names item) := by
  simp only [SettledBy, List.mem_flatMap]
  grind

namespace SourceFrontEnd

/-- **Types are entered without a problem exactly if they are new**, and then they are known under
their names. -/
theorem defineAll_eq_nil_iff (file : String) (declared : List (String × Span)) {types : TypeIndex}
    (hdistinct : types.names.Nodup) :
    ((defineAll file declared types).1 = [] ↔
      (types.names ++ declared.map Prod.fst).Nodup) ∧
    ((defineAll file declared types).1 = [] →
      (defineAll file declared types).2.names = types.names ++ declared.map Prod.fst) := by
  induction declared generalizing types with
  | nil => simpa [defineAll] using hdistinct
  | cons first declared ih =>
      obtain ⟨name, span⟩ := first
      rcases types.define_cases { name, file, span } with ⟨hold, earlier, herror⟩ | ⟨hnew, hok⟩
      · have hclash : ¬ (types.names ++ name :: declared.map Prod.fst).Nodup := by
          rw [List.nodup_append]
          exact fun h => h.2.2 name hold name List.mem_cons_self rfl
        simp [defineAll, herror, hclash]
      · let next : TypeIndex := { bindings := types.bindings ++ [{ name, file, span }] }
        have hnames : next.names = types.names ++ [name] := by simp [next, TypeIndex.names]
        have hnext : next.names.Nodup := by
          rw [hnames, List.nodup_append]
          refine ⟨hdistinct, List.nodup_singleton _, fun other hother last hlast => ?_⟩
          rw [List.mem_singleton.1 hlast]
          rintro rfl
          exact hnew hother
        have hlater := ih hnext
        rw [hnames, List.append_assoc, List.singleton_append] at hlater
        simpa only [defineAll, hok, List.map_cons] using hlater

/-- A reference needs no search if the names that are known settle it, or if its package is a
directory on the sourcepath. -/
theorem isKnown_iff {tree : FileTree} {front : SourceFrontEnd} {reference : Reference} :
    isKnown tree front reference = true ↔
      reference.SettledBy front.types.names ∨
        ∃ package ∈ reference.package, front.packageOnSourcepath tree package = true := by
  simp only [isKnown, Bool.or_eq_true, List.any_eq_true, Option.any_eq_true,
    TypeIndex.knowsType_iff, TypeIndex.knowsPackage_iff, Reference.SettledBy, Option.mem_def]
  grind

end SourceFrontEnd

/-! ### Registries -/

namespace Registry

/-- Behind files of which each is there once stands a file that is not there. -/
theorem nodup_append {registry : Registry} (h : registry.files.Nodup) {file : String}
    (hnew : registry.contains file = false) : (registry.files ++ [file]).Nodup := by
  have hother : file ∉ registry.files := by
    rw [← contains_iff_mem, hnew]
    exact Bool.false_ne_true
  exact h.append (List.nodup_singleton file) (List.disjoint_singleton.2 hother)

end Registry

/-- What a batch holds in the end, with the files of its units in order. -/
theorem Holds.files_eq {files added : List String} {registry : Registry} {errors : Nat}
    (h : Holds files added registry errors) : registry.files = files ++ added := by
  have hfiles : registry.files =
      (registry.slots.map (Option.map CompilationUnit.identity)).filterMap
        (Option.map Prod.fst) := by
    rw [Registry.files, Registry.units, List.map_filterMap, List.filterMap_map]
    refine congrArg (registry.slots.filterMap ·) (funext fun slot => ?_)
    cases slot <;> rfl
  rw [hfiles, h.identities, List.filterMap_append, List.filterMap_map, List.filterMap_map]
  simp

/-! ### One more source -/

namespace SourceFrontEnd

theorem Completion.clean_iff {state : Completion} :
    state.Clean ↔ state.front.globalErrors = 0 ∧
      ∀ unit ∈ state.registry.units, unit.isBroken = false := by
  refine ⟨fun h => ⟨h.errors, fun unit hunit => ?_⟩, fun h => ⟨h.1, fun place unit hunit => ?_⟩⟩
  · obtain ⟨place, hplace⟩ := Registry.mem_units_iff.1 hunit
    exact h.units place unit hplace
  · exact h.2 unit (Registry.mem_units_iff.2 ⟨place, hunit⟩)

/-- A unit is not broken when it is entered, exactly if nothing is wrong with its text and its types
are new. -/
theorem enteredUnit_isBroken {tree : FileTree} {source : SourceFile} {report : UnitReport}
    {front : SourceFrontEnd} {text : String} (diet : Bool)
    (htext : source.contents tree front.sizeLimit = .ok text)
    (hreport : (report.hasSyntaxError || report.hasErrors) = false) :
    (enteredUnit tree source report diet front).1.isBroken = false ↔
      (Outline.parse text diet).errors = [] ∧
        (defineAll source.file (Outline.parse text diet).outline.declaredTypes
          front.types).1 = [] := by
  refine ⟨enteredUnit_clean htext, fun ⟨herrors, hproblems⟩ => ?_⟩
  rw [enteredUnit_text htext, ← hreport]
  simp only [CompilationUnit.isBroken, CompilationUnit.hasSyntaxError, CompilationUnit.hasErrors,
    parsedUnit, CompilationUnit.make, CompilationUnit.recordAll, UnitReport.recordAll, hproblems,
    reportParse, herrors, recordSyntaxErrors, List.foldl_nil, UnitReport.hasErrors]
  split <;> rfl

/-- A batch to which a source was added, read on a diet or in full.  A source that cannot be read is
counted as an error. -/
def Completion.Adds (tree : FileTree) (source : SourceFile) (diet : Bool)
    (state next : Completion) : Prop :=
  match source.contents tree state.front.sizeLimit with
  | .error _ => next.front.globalErrors ≠ 0
  | .ok text =>
      let parsed := Outline.parse text diet
      let defined := defineAll source.file parsed.outline.declaredTypes state.front.types
      next.front = { state.front with types := defined.2 } ∧
        ∃ unit, next.registry.units = state.registry.units ++ [unit] ∧
          unit.file = source.file ∧ unit.source = some text ∧
          unit.outline = some parsed.outline ∧
          (unit.isBroken = false ↔ parsed.errors = [] ∧ defined.1 = [])

section

variable {tree : FileTree} {state : Completion} {source : SourceFile} {report : UnitReport}
  {diet : Bool}

/-- An entered unit may be changed before it is added, if it keeps what counts. -/
theorem adds_enteredUnit (hcollecting : state.registry.collecting = true)
    (hreport : (report.hasSyntaxError || report.hasErrors) = false)
    (change : CompilationUnit → CompilationUnit)
    (hchange : ∀ unit, (change unit).file = unit.file ∧ (change unit).source = unit.source ∧
      (change unit).outline = unit.outline ∧ (change unit).isBroken = unit.isBroken) :
    Completion.Adds tree source diet state
      { front := (enteredUnit tree source report diet state.front).2
        registry := (state.registry.add
          (change (enteredUnit tree source report diet state.front).1)).2 } := by
  unfold Completion.Adds
  cases hcontents : source.contents tree state.front.sizeLimit with
  | error e => simp [enteredUnit, parse, bind, hcontents, CompilationUnit.make]
  | ok text =>
      obtain ⟨hfile, hsource, houtline, hbroken⟩ :=
        hchange (enteredUnit tree source report diet state.front).1
      have hentered : enteredUnit tree source report diet state.front = _ :=
        enteredUnit_text hcontents
      refine ⟨by rw [hentered], _, Registry.units_add hcollecting _, ?_, ?_, ?_, ?_⟩
      · refine hfile.trans ?_
        rw [hentered]
        rfl
      · refine hsource.trans ?_
        rw [hentered]
        rfl
      · refine houtline.trans ?_
        rw [hentered]
        rfl
      · rw [← enteredUnit_isBroken diet hcontents hreport, ← hbroken]
        rfl

/-- A file that is not there is added on a diet. -/
theorem loadClosure_adds {path : String} (hcollecting : state.registry.collecting = true)
    (hnew : state.registry.contains path = false) :
    state.Adds tree { file := path, origin := .closure } true (loadClosure tree path state).value := by
  rw [loadClosure_new hnew]
  exact adds_enteredUnit hcollecting rfl id fun _ => ⟨rfl, rfl, rfl, rfl⟩

/-- A source of the command line is added on a diet behind the threshold. -/
theorem enterSource_adds (threshold total index : Nat)
    (hcollecting : state.registry.collecting = true) :
    state.Adds tree source (decide (threshold ≤ state.registry.size))
      (enterSource tree threshold total index source state) := by
  refine adds_enteredUnit hcollecting rfl Batch.notePackage fun unit => ⟨?_, ?_, ?_, ?_⟩
  all_goals
    unfold Batch.notePackage
    split <;> rfl

end

end SourceFrontEnd

/-! ### What others see of a file -/

open SourceFrontEnd

/-- The files that a command line names, whatever their order, and how they are read. -/
structure Request where
  tree : FileTree
  reading : ReadingPreferences
  files : List String
  /-- The front end, with the sourcepath and the limit for the size of a source. -/
  front : SourceFrontEnd

namespace Request

variable (request : Request)

/-- The source of a file.  One that is named may be read ahead. -/
def sourceOf (file : String) : SourceFile :=
  if file ∈ request.files then
    sourceAmong request.tree request.reading request.files.length file
  else { file, origin := .closure }

/-- The text of a file, if it can be read. -/
def textOf (file : String) : Option String :=
  ((request.sourceOf file).contents request.tree request.front.sizeLimit).toOption

/-- Whether a file is parsed on a diet at a place: files that are named are so behind the threshold,
and all others are. -/
def dietAt (file : String) (place : Nat) : Bool :=
  decide (file ∉ request.files) || decide (request.reading.parseThreshold ≤ place)

/-- The outline of a file, as it is when the file comes first. -/
def outlineOf (file : String) : Option Outline :=
  (request.textOf file).map fun text => (Outline.parse text (request.dietAt file 0)).outline

/-- The names of the types that a file declares. -/
def namesOf (file : String) : List String := (request.outlineOf file).elim [] Outline.declaredNames

/-- What a file refers to. -/
def referencesOf (file : String) : List Reference :=
  (request.outlineOf file).elim [] Outline.references

/-- A file has a text that is parsed without errors. -/
def Parses (file : String) : Prop :=
  ∃ text, request.textOf file = some text ∧
    (Outline.parse text (request.dietAt file 0)).errors = []

/-- The files that are named are sound by themselves, and others see the same of them wherever they
stand. -/
def Sound : Prop :=
  ∀ file ∈ request.files, ∃ text, request.textOf file = some text ∧
    ∀ place < request.files.length, SourceSound file text (request.dietAt file place) ∧
      (Outline.parse text (request.dietAt file place)).outline.declaredTypes =
        (Outline.parse text (request.dietAt file 0)).outline.declaredTypes ∧
      (Outline.parse text (request.dietAt file place)).outline.references =
        (Outline.parse text (request.dietAt file 0)).outline.references

variable {request}

/-- A file that is not named is always parsed on a diet. -/
theorem dietAt_closure {file : String} (h : file ∉ request.files) (place : Nat) :
    request.dietAt file place = true := by
  simp [dietAt, h]

/-- Others see the same of a file wherever it stands. -/
theorem Sound.parse_eq (hsound : request.Sound) {file text : String} {place : Nat}
    (htext : request.textOf file = some text)
    (hplace : file ∈ request.files → place < request.files.length) :
    ((Outline.parse text (request.dietAt file place)).errors = [] ↔ request.Parses file) ∧
      (Outline.parse text (request.dietAt file place)).outline.declaredNames =
        request.namesOf file ∧
      (Outline.parse text (request.dietAt file place)).outline.references =
        request.referencesOf file := by
  have hparses : request.Parses file ↔
      (Outline.parse text (request.dietAt file 0)).errors = [] := by
    simp [Parses, htext]
  have houtline : request.outlineOf file =
      some (Outline.parse text (request.dietAt file 0)).outline := by
    simp [outlineOf, htext]
  rw [hparses, namesOf, referencesOf, houtline]
  by_cases hfile : file ∈ request.files
  · obtain ⟨found, hfound, hplaces⟩ := hsound file hfile
    obtain rfl : found = text := Option.some.inj (hfound.symm.trans htext)
    obtain ⟨hsource, hdeclared, hreferences⟩ := hplaces place (hplace hfile)
    obtain ⟨hfirst, -⟩ := hplaces 0 (List.length_pos_of_mem hfile)
    refine ⟨iff_of_true hsource.parsed hfirst.parsed, ?_, hreferences⟩
    simp only [Outline.declaredNames, hdeclared, Option.elim_some]
  · rw [dietAt_closure hfile, dietAt_closure hfile, Option.elim_some, Option.elim_some]
    exact ⟨.rfl, rfl, rfl⟩

/-! ### Batches without errors -/

/-- A unit shows what its file holds, parsed without errors at some place. -/
def Shows (request : Request) (unit : CompilationUnit) : Prop :=
  ∃ text place, request.textOf unit.file = some text ∧
    (unit.file ∈ request.files → place < request.files.length) ∧
    (Outline.parse text (request.dietAt unit.file place)).errors = [] ∧ unit.source = some text ∧
    unit.outline = some (Outline.parse text (request.dietAt unit.file place)).outline

/-- A batch without errors: its units show what their files hold, and the types that are known are
those that they declare, every one once. -/
structure Tidy (request : Request) (state : Completion) : Prop where
  clean : state.Clean
  collecting : state.registry.collecting = true
  limit : state.front.sizeLimit = request.front.sizeLimit
  shows : ∀ unit ∈ state.registry.units, request.Shows unit
  names : state.front.types.names = state.registry.units.flatMap CompilationUnit.declaredNames
  distinct : state.front.types.names.Nodup

/-- Others see of a unit what they see of its file. -/
theorem Sound.shows (hsound : request.Sound) {unit : CompilationUnit} (hunit : request.Shows unit) :
    unit.declaredNames = request.namesOf unit.file ∧
      unit.outline.elim [] Outline.references = request.referencesOf unit.file := by
  obtain ⟨text, place, htext, hplace, -, -, houtline⟩ := hunit
  obtain ⟨-, hdeclared, hreferences⟩ := hsound.parse_eq htext hplace
  rw [CompilationUnit.declaredNames, houtline, Option.elim_some, Option.elim_some]
  exact ⟨hdeclared, hreferences⟩

/-- The types that are known in a tidy batch are those that its files declare. -/
theorem Tidy.names_eq {state : Completion} (h : request.Tidy state) (hsound : request.Sound) :
    state.front.types.names = state.registry.files.flatMap request.namesOf := by
  rw [h.names, Registry.files, List.flatMap_map]
  exact List.flatMap_congr fun unit hunit => (hsound.shows (h.shows unit hunit)).1

theorem file_sourceOf (request : Request) (file : String) :
    (request.sourceOf file).file = file := by
  unfold sourceOf
  split
  · exact (sourceAmong_identity ..).1
  · rfl

/-- **When a file can be added to a tidy batch without an error**: it is parsed without errors, and
what it declares is new.  The batch is tidy then. -/
theorem Tidy.adds {state next : Completion} {file : String} {place : Nat} (h : request.Tidy state)
    (hextends : state.Extends next)
    (hadds : state.Adds request.tree (request.sourceOf file) (request.dietAt file place) next)
    (hplace : file ∈ request.files → place < request.files.length) :
    (next.Clean ↔ ∃ text, request.textOf file = some text ∧
      (Outline.parse text (request.dietAt file place)).errors = [] ∧
      (state.front.types.names ++
        (Outline.parse text (request.dietAt file place)).outline.declaredNames).Nodup) ∧
    (next.Clean → request.Tidy next ∧ next.registry.files = state.registry.files ++ [file]) := by
  unfold Completion.Adds at hadds
  rw [h.limit] at hadds
  cases hcontents : (request.sourceOf file).contents request.tree request.front.sizeLimit with
  | error e =>
      rw [hcontents] at hadds
      have hunread : request.textOf file = none := by simp [textOf, hcontents, Except.toOption]
      refine ⟨iff_of_false (fun hclean => hadds hclean.errors) ?_,
        fun hclean => absurd hclean.errors hadds⟩
      simp [hunread]
  | ok text =>
      have htext : request.textOf file = some text := by
        simp [textOf, hcontents, Except.toOption]
      simp only [hcontents, file_sourceOf] at hadds
      obtain ⟨hfront, unit, hunits, hfile, hsource, houtline, hbroken⟩ := hadds
      obtain ⟨hnew, hnames⟩ := defineAll_eq_nil_iff file
        (Outline.parse text (request.dietAt file place)).outline.declaredTypes h.distinct
      rw [← Outline.declaredNames] at hnew hnames
      -- Of the units only the new one can be broken.
      have hclean : next.Clean ↔ unit.isBroken = false := by
        rw [Completion.clean_iff, hunits, hfront]
        simp only [List.forall_mem_append, List.forall_mem_singleton]
        exact ⟨fun hnext => hnext.2.2, fun hunit =>
          ⟨h.clean.errors, (Completion.clean_iff.1 h.clean).2, hunit⟩⟩
      refine ⟨?_, fun hnext => ?_⟩
      · rw [hclean, hbroken, hnew]
        simp only [htext, Option.some.injEq, exists_eq_left']
      · obtain ⟨herrors, hproblems⟩ := hbroken.1 (hclean.1 hnext)
        have hknown : next.front.types.names = state.front.types.names ++
            (Outline.parse text (request.dietAt file place)).outline.declaredNames := by
          rw [hfront]
          exact hnames hproblems
        refine ⟨⟨hnext, hextends.collecting.trans h.collecting,
          hextends.sizeLimit.trans h.limit, ?_, ?_, ?_⟩, ?_⟩
        · rw [hunits]
          refine List.forall_mem_append.2 ⟨h.shows, List.forall_mem_singleton.2 ?_⟩
          rw [← hfile] at htext hplace herrors houtline
          exact ⟨text, place, htext, hplace, herrors, hsource, houtline⟩
        · rw [hknown, hunits, List.flatMap_append, ← h.names, List.flatMap_singleton,
            CompilationUnit.declaredNames, houtline, Option.elim_some]
        · rw [hknown]
          exact hnew.1 hproblems
        · rw [Registry.files, hunits, List.map_append, List.map_singleton, hfile]
          rfl

/-! ### The files of a command line -/

/-- The batch of the files in some order, when they were entered. -/
def entered (request : Request) (names : List String) : Completion :=
  SourceFrontEnd.entered request.tree request.reading names (request.front.listing names)

/-- The front end was not used yet. -/
structure Fresh (request : Request) : Prop where
  types : request.front.types = {}
  errors : request.front.globalErrors = 0

theorem sourceOf_named {file : String} (h : file ∈ request.files) :
    request.sourceOf file = sourceAmong request.tree request.reading request.files.length file :=
  if_pos h

theorem dietAt_named {file : String} (h : file ∈ request.files) (place : Nat) :
    request.dietAt file place = decide (request.reading.parseThreshold ≤ place) := by
  simp [dietAt, h]

theorem Sound.parses (hsound : request.Sound) {file : String} (h : file ∈ request.files) :
    request.Parses file := by
  obtain ⟨text, htext, hplaces⟩ := hsound file h
  exact ⟨text, htext, (hplaces 0 (List.length_pos_of_mem h)).1.parsed⟩

/-- What a tidy batch is after a file that is named was entered behind others. -/
theorem Tidy.enterSource {state : Completion} {ahead rest : List String} {file : String}
    (h : request.Tidy state) (hfiles : state.registry.files = ahead)
    (hsize : state.registry.size = ahead.length)
    (hperm : (ahead ++ file :: rest).Perm request.files) (index : Nat) :
    let next := SourceFrontEnd.enterSource request.tree request.reading.parseThreshold
      request.files.length index
      (sourceAmong request.tree request.reading request.files.length file) state
    (next.Clean → request.Tidy next ∧ next.registry.files = ahead ++ [file] ∧
      next.registry.size = (ahead ++ [file]).length) ∧
    (request.Sound → ((ahead ++ [file]).flatMap request.namesOf).Nodup → next.Clean) := by
  intro next
  have hfile : file ∈ request.files := hperm.subset (by simp)
  have hplace : ahead.length < request.files.length := by
    rw [← hperm.length_eq]
    simp
  have hadds : state.Adds request.tree (request.sourceOf file) (request.dietAt file ahead.length)
      next := by
    rw [sourceOf_named hfile, dietAt_named hfile, ← hsize]
    exact enterSource_adds _ _ _ h.collecting
  have hnext : next.registry.size = (ahead ++ [file]).length := by
    rw [List.length_append, ← hsize]
    exact size_add h.collecting _
  obtain ⟨hclean, htidy⟩ := h.adds (enterSource_extends index _ state) hadds fun _ => hplace
  rw [hfiles] at htidy
  refine ⟨fun hnone => ⟨(htidy hnone).1, (htidy hnone).2, hnext⟩, fun hsound hdistinct => ?_⟩
  obtain ⟨text, htext, hplaces⟩ := hsound file hfile
  refine hclean.2 ⟨text, htext, (hplaces _ hplace).1.parsed, ?_⟩
  rw [h.names_eq hsound, hfiles, (hsound.parse_eq htext fun _ => hplace).2.1]
  simpa using hdistinct

section

variable {state : Completion} {ahead rest : List String} (h : request.Tidy state)
  (hfiles : state.registry.files = ahead) (hsize : state.registry.size = ahead.length)
  (hperm : (ahead ++ rest).Perm request.files)

include h hfiles hsize hperm

/-- A tidy batch is tidy when files that are named were entered without an error. -/
theorem Tidy.enterAll (index : Nat)
    (hclean : (SourceFrontEnd.enterAll request.tree request.reading.parseThreshold
      request.files.length index
      (rest.map (sourceAmong request.tree request.reading request.files.length)) state).Clean) :
    let next := SourceFrontEnd.enterAll request.tree request.reading.parseThreshold
      request.files.length index
      (rest.map (sourceAmong request.tree request.reading request.files.length)) state
    request.Tidy next ∧ next.registry.files = ahead ++ rest := by
  induction rest generalizing state ahead index with
  | nil => exact ⟨h, by rw [List.append_nil]; exact hfiles⟩
  | cons file rest ih =>
      obtain ⟨hfirst, -⟩ := h.enterSource hfiles hsize hperm index
      obtain ⟨htidy, hfiles', hsize'⟩ :=
        hfirst ((enterAll_extends (index + 1) _ _).clean hclean)
      have hrest := ih htidy hfiles' hsize' (by simpa using hperm) (index + 1) hclean
      rw [List.append_assoc, List.singleton_append] at hrest
      exact hrest

/-- Sound files are entered without an error if no type is declared twice. -/
theorem Tidy.enterAll_clean (hsound : request.Sound)
    (hdistinct : ((ahead ++ rest).flatMap request.namesOf).Nodup) (index : Nat) :
    (SourceFrontEnd.enterAll request.tree request.reading.parseThreshold request.files.length index
      (rest.map (sourceAmong request.tree request.reading request.files.length)) state).Clean := by
  induction rest generalizing state ahead index with
  | nil => exact h.clean
  | cons file rest ih =>
      obtain ⟨htidy, hclean⟩ := h.enterSource hfiles hsize hperm index
      have hahead : ((ahead ++ [file]).flatMap request.namesOf).Nodup :=
        hdistinct.sublist (List.Sublist.flatMap (by simp) _)
      obtain ⟨hfirst, hfiles', hsize'⟩ := htidy (hclean hsound hahead)
      exact ih hfirst hfiles' hsize' (by simpa using hperm) (by simpa using hdistinct) (index + 1)

end

/-- The batch before any file is entered. -/
theorem Fresh.tidy (hfresh : request.Fresh) (names : List String) (capacity : Nat) :
    request.Tidy { front := request.front.listing names, registry := .ofCapacity capacity } where
  clean := ⟨hfresh.errors, fun place unit hunit => by
    simp [Registry.get?, Registry.ofCapacity] at hunit⟩
  collecting := rfl
  limit := rfl
  shows unit hunit := by simp [Registry.units, Registry.ofCapacity] at hunit
  names := by
    simp only [listing, hfresh.types]
    rfl
  distinct := by
    simp only [listing, hfresh.types]
    exact List.nodup_nil

section

variable (hfresh : request.Fresh) {names : List String} (hperm : names.Perm request.files)

include hfresh hperm

/-- The files of a command line that are entered without an error make a tidy batch. -/
theorem tidy_entered (hclean : (request.entered names).Clean) :
    request.Tidy (request.entered names) ∧ (request.entered names).registry.files = names := by
  unfold entered SourceFrontEnd.entered at hclean ⊢
  rw [hperm.length_eq] at hclean ⊢
  exact (hfresh.tidy names request.files.length).enterAll rfl rfl hperm 0 hclean

/-- **The files of a command line are entered without an error exactly if no type is declared twice**,
in whatever order they come. -/
theorem entered_clean_iff (hsound : request.Sound) :
    (request.entered names).Clean ↔ (request.files.flatMap request.namesOf).Nodup := by
  have hnames : (names.flatMap request.namesOf).Perm (request.files.flatMap request.namesOf) :=
    hperm.flatMap fun _ _ => .refl _
  rw [← hnames.nodup_iff]
  constructor
  · intro hclean
    obtain ⟨htidy, hfiles⟩ := tidy_entered hfresh hperm hclean
    rw [← hfiles, ← htidy.names_eq hsound]
    exact htidy.distinct
  · intro hdistinct
    unfold entered SourceFrontEnd.entered
    rw [hperm.length_eq]
    exact (hfresh.tidy names request.files.length).enterAll_clean rfl rfl hperm hsound hdistinct 0

end

/-! ### Completing -/

/-- A tidy batch in which problems are noted is tidy, if it has no errors. -/
theorem Tidy.record {state : Completion} (h : request.Tidy state) {index : Nat}
    {problems : List Problem}
    (hclean : Completion.Clean
      { state with registry := state.registry.modify index (·.recordAll problems) }) :
    request.Tidy
      { state with registry := state.registry.modify index (·.recordAll problems) } where
  clean := hclean
  collecting := h.collecting
  limit := h.limit
  shows unit hunit := by
    obtain ⟨place, hplace⟩ := Registry.mem_units_iff.1 hunit
    obtain ⟨old, hold, rfl | rfl⟩ := get?_record hplace
    · exact h.shows _ (Registry.mem_units_iff.2 ⟨place, hold⟩)
    · exact h.shows old (Registry.mem_units_iff.2 ⟨place, hold⟩)
  names := by
    rw [List.flatMap_def, Registry.map_units_record _ _ _ fun _ => rfl, ← List.flatMap_def]
    exact h.names
  distinct := h.distinct

section

variable {start state : Completion}
  (hnamed : ∀ file ∈ request.files, start.registry.contains file = true)

include hnamed

/-- A file that is added to the batch was not named. -/
theorem not_named_of_new (hstart : start.Extends state) {path : String}
    (hnew : state.registry.contains path = false) : path ∉ request.files := by
  intro hpath
  rw [hstart.contains (hnamed path hpath)] at hnew
  cases hnew

/-- What a tidy batch is after a file of the sourcepath was added. -/
theorem Tidy.loadClosure (hstart : start.Extends state) (h : request.Tidy state) {path : String}
    (hnew : state.registry.contains path = false) :
    let next := (loadClosure request.tree path state).value
    (next.Clean → request.Tidy next ∧ next.registry.files = state.registry.files ++ [path]) ∧
    (request.Sound → request.Parses path →
      ((state.registry.files ++ [path]).flatMap request.namesOf).Nodup → next.Clean) := by
  intro next
  have hpath : path ∉ request.files := not_named_of_new hnamed hstart hnew
  have hadds : state.Adds request.tree (request.sourceOf path) (request.dietAt path 0) next := by
    rw [sourceOf, if_neg hpath, dietAt_closure hpath]
    exact loadClosure_adds h.collecting hnew
  obtain ⟨hclean, htidy⟩ :=
    h.adds (loadClosure_extends path state) hadds fun hmem => absurd hmem hpath
  refine ⟨htidy, fun hsound ⟨text, htext, herrors⟩ hdistinct => hclean.2 ⟨text, htext, herrors, ?_⟩⟩
  rw [h.names_eq hsound, (hsound.parse_eq htext fun hmem => absurd hmem hpath).2.1]
  simpa using hdistinct

/-- A batch without errors that is being completed is tidy. -/
theorem tidy_kept :
    KeptByLoading request.tree start fun state => state.Clean → request.Tidy state := by
  intro state path hstart h _ hnew hclean
  have hextends : state.Extends (SourceFrontEnd.loadClosure request.tree path state).value :=
    loadClosure_extends path state
  exact (((h (hextends.clean hclean)).loadClosure hnamed hstart hnew).1 hclean).1

/-- **A batch that is completed without errors is tidy.** -/
theorem tidy_completeFrom (htidy : start.Clean → request.Tidy start) (fuel : Nat)
    (hclean : (completeFrom request.tree fuel 0 start).value.Clean) :
    request.Tidy (completeFrom request.tree fuel 0 start).value := by
  refine completeFrom_kept (tidy_kept hnamed) (fun state index problems h hclean => ?_)
    (.refl start) htidy fuel 0 hclean
  exact (h ((extends_record index problems state).clean hclean)).record hclean

end

end Request

end JavaOutline
