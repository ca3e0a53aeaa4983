/-
**No import that cannot be resolved slips through.**

While a batch is completed, every reference gets its verdict when its unit is visited, and what cannot
be resolved by then is an error of the unit.  Afterwards more files are added, and the report on a unit
keeps only so many problems.  Yet a verdict stands: types that are known stay known, and a report that
has to keep an error keeps one.  So in a batch without a classpath the imports of a unit without errors
name something that is known in the end, unless the platform provides it.

Main definitions:

* `UnitReport.ShowsSyntaxErrors` — a report on broken syntax keeps an error.

Main results:

* `showsSyntaxErrors_kept` — so do all reports of a batch, whatever their limit;
* `reference_known` — what an import refers to, in the words of the import;
* `compile_imports_known` — **the imports of a unit without errors are known in the end**.
-/

import JavaOutline.Proofs.RepeatedArgument

set_option autoImplicit false

namespace JavaOutline

open SourceFrontEnd

/-! ### Broken syntax is an error -/

/-- A report on broken syntax keeps an error. -/
def UnitReport.ShowsSyntaxErrors (report : UnitReport) : Prop :=
  report.hasSyntaxError = true → report.hasErrors = true

namespace UnitReport.ShowsSyntaxErrors

variable {report : UnitReport}

theorem record (h : report.ShowsSyntaxErrors) (problem : Problem) :
    (report.record problem).ShowsSyntaxErrors := by
  intro hsyntax
  rw [report.hasSyntaxError_record problem] at hsyntax
  exact report.hasErrors_record problem (h hsyntax)

theorem recordAll (h : report.ShowsSyntaxErrors) (problems : List Problem) :
    (report.recordAll problems).ShowsSyntaxErrors := by
  induction problems generalizing report with
  | nil => exact h
  | cons problem problems ih => exact ih (h.record problem)

/-- Syntax errors are errors, also beyond the limit. -/
theorem recordSyntaxErrors (h : report.ShowsSyntaxErrors) (errors : List SyntaxError) :
    (recordSyntaxErrors report errors).ShowsSyntaxErrors := by
  induction errors generalizing report with
  | nil => exact h
  | cons e errors ih => exact ih fun _ => UnitReport.hasErrors_record_error _ rfl

/-- A source is parsed with a report on which nothing is noted yet. -/
theorem reportParse (h : report.ShowsSyntaxErrors) (parsed : Parse) :
    (reportParse report parsed).ShowsSyntaxErrors := by
  have hbegun : UnitReport.ShowsSyntaxErrors { report with separators := parsed.separators } := h
  have hfound := hbegun.recordSyntaxErrors parsed.errors
  unfold SourceFrontEnd.reportParse
  simp only
  split
  · exact hfound
  · exact hfound

end UnitReport.ShowsSyntaxErrors

/-- **The reports of a batch show syntax errors as errors.** -/
theorem showsSyntaxErrors_kept (tree : FileTree) :
    KeptByCompiling tree fun unit => unit.report.ShowsSyntaxErrors where
  entered source index knownUnits maxProblems diet front := by
    have hnew : UnitReport.ShowsSyntaxErrors
        { file := source.file, index, knownUnits, maxProblems } := nofun
    unfold enteredUnit SourceFrontEnd.parse SourceFrontEnd.bind
    cases source.contents tree front.sizeLimit with
    | error e => exact hnew
    | ok text =>
        have hparsed := hnew.reportParse (Outline.parse text diet)
        simp only [CompilationUnit.make, CompilationUnit.recordAll, Logged.value_pure]
        exact hparsed.recordAll _
  package unit h := by
    unfold Batch.notePackage
    split
    · exact h
    · exact h
  ordinal _ _ h := h
  record _ problems h := h.recordAll problems

/-! ### Imports -/

/-- What an import refers to is known: the type that it names, the type around the member for a single
static import, or for an import of types on demand also a package. -/
theorem reference_known {tree : FileTree} {front : SourceFrontEnd} {i : ImportDecl}
    (h : isKnown tree front i.reference = true) :
    front.types.knowsType (if i.isStatic && !i.onDemand then i.qualifier else i.name) = true ∨
      (i.onDemand = true ∧ i.isStatic = false ∧
        (front.types.knowsType i.name = true ∨ front.types.knowsPackage i.name = true ∨
          front.packageOnSourcepath tree i.name = true)) := by
  simp only [isKnown, ImportDecl.reference, Bool.or_eq_true, List.any_eq_true,
    Option.any_eq_true] at h
  rcases h with ⟨candidate, hcandidate, hknown⟩ | ⟨package, hpackage, hknown⟩
  · left
    split at hcandidate
    next hsingle =>
      rw [if_pos hsingle, ← List.mem_singleton.1 hcandidate]
      exact hknown
    next hsingle =>
      rw [if_neg hsingle, ← List.mem_singleton.1 hcandidate]
      exact hknown
  · right
    split at hpackage
    next hdemand =>
      obtain rfl := Option.some.inj hpackage
      obtain ⟨hon, hstatic⟩ := Bool.and_eq_true_iff.1 hdemand
      exact ⟨hon, by simpa using hstatic, .inr hknown⟩
    next => cases hpackage

/-- **The imports of a unit without errors are known in the end**, for every tree of files and every
command line without a classpath.  The type that an import names is known, or the type around the
member for a single static import; an import of types on demand may also name a package that is known
or a directory on the sourcepath.  What the platform provides need not be known. -/
theorem compile_imports_known (tree : FileTree) (reading : ReadingPreferences)
    (front : SourceFrontEnd) {arguments : List String} {options : Options}
    (h : Options.parse arguments = .ok options) (hclasspath : options.classpath = []) :
    ∃ batch last,
      (Batch.compile (sourceFrontEnd tree) tree reading arguments front).value = (.ok batch, last) ∧
      ∀ unit ∈ batch.registry.units, ∀ outline, unit.outline = some outline →
        unit.hasErrors = false → ∀ i ∈ outline.imports, isPlatformName i.name = false →
          last.types.knowsType (if i.isStatic && !i.onDemand then i.qualifier else i.name) = true ∨
            (i.onDemand = true ∧ i.isStatic = false ∧
              (last.types.knowsType i.name = true ∨ last.types.knowsPackage i.name = true ∨
                last.packageOnSourcepath tree i.name = true)) := by
  refine ⟨_, _, compile_compiledFor h, fun unit hunit outline houtline hclean i hi hplatform => ?_⟩
  obtain ⟨place, hplace⟩ := Registry.mem_units_iff.1 hunit
  have hsound : unit.isBroken = false := by
    have hshows : unit.report.ShowsSyntaxErrors :=
      (showsSyntaxErrors_kept tree).compiled reading options.files _ place unit hplace
    have hsyntax : unit.hasSyntaxError = false :=
      Bool.eq_false_iff.2 fun hbroken => by
        rw [CompilationUnit.hasErrors, hshows hbroken] at hclean
        cases hclean
    rw [CompilationUnit.isBroken, hsyntax, hclean]
    rfl
  have hmust : mustResolve (compiledFor tree reading front options).front.options i.reference =
      true := by
    have hoptions : (compiledFor tree reading front options).front.options =
        Batch.readOnly options :=
      compiled_extends.options.trans (enterAll_extends 0 _ _).options
    have hempty : (Batch.readOnly options).classpath = [] := hclasspath
    simp [mustResolve, ImportDecl.reference, hplatform, hoptions, hempty]
  have hreference : i.reference ∈ outline.references :=
    List.mem_append_left _ (List.mem_map_of_mem hi)
  have hcompleted : (compiledFor tree reading front options).Completed tree place :=
    completed_completeFrom collecting_entered place
  obtain ⟨-, hknown⟩ := hcompleted unit outline hplace houtline i.reference hreference
  exact reference_known (hknown hsound hmust)

/-- A file with an import of each sort, and a sourcepath with what they name. -/
def importsTree : FileTree where
  entries := [(["A.java"],
      .file "import lib.L; import static lib.L.m; import box.*; class A \x7b \x7d".toUTF8),
    (["sp"], .directory), (["sp", "lib"], .directory), (["sp", "box"], .directory),
    (["sp", "lib", "L.java"], .file "package lib; class L \x7b \x7d".toUTF8)]

/-- The types that the imports need are loaded, and the package is a directory. -/
theorem compile_imports_known_sourcepath :
    let arguments := ["-sourcepath", "sp", "A.java"]
    ∃ options batch last, Options.parse arguments = .ok options ∧ options.classpath = [] ∧
      (Batch.compile (sourceFrontEnd importsTree) importsTree {} arguments {}).value =
        (.ok batch, last) ∧
      ∃ unit ∈ batch.registry.units, ∃ outline, unit.outline = some outline ∧
        unit.hasErrors = false ∧
        outline.imports.map (fun i => (i.name, i.isStatic, i.onDemand)) =
          [("lib.L", false, false), ("lib.L.m", true, false), ("box", false, true)] ∧
        ∀ i ∈ outline.imports, isPlatformName i.name = false ∧
          (last.types.knowsType (if i.isStatic && !i.onDemand then i.qualifier else i.name) = true ∨
            (i.onDemand = true ∧ i.isStatic = false ∧
              (last.types.knowsType i.name = true ∨ last.types.knowsPackage i.name = true ∨
                last.packageOnSourcepath importsTree i.name = true))) := by
  intro arguments
  have hparsed : (Options.parse arguments).toOption.map Options.classpath = some [] := by
    decide +kernel
  have hbatch : (Batch.compile (sourceFrontEnd importsTree) importsTree {} arguments
      {}).value.1.toOption.bind (fun batch => batch.registry.units.head?.bind fun unit =>
        unit.outline.map fun outline =>
          (unit.hasErrors, outline.imports.map (fun i => (i.name, i.isStatic, i.onDemand)))) =
      some (false, [("lib.L", false, false), ("lib.L.m", true, false), ("box", false, true)]) := by
    decide +kernel
  obtain ⟨options, hoptions, hclasspath⟩ := Option.map_eq_some_iff.1 hparsed
  have hparse : Options.parse arguments = .ok options := eq_ok_of_toOption hoptions
  obtain ⟨batch, last, hcompile, hknown⟩ :=
    compile_imports_known importsTree {} {} hparse hclasspath
  simp only [hcompile, Except.toOption, Option.bind_some] at hbatch
  obtain ⟨unit, hunit, hshown⟩ := Option.bind_eq_some_iff.1 hbatch
  obtain ⟨outline, houtline, hfound⟩ := Option.map_eq_some_iff.1 hshown
  obtain ⟨hclean, himports⟩ := Prod.mk.inj hfound
  have hmem : unit ∈ batch.registry.units := List.mem_of_mem_head? hunit
  refine ⟨options, batch, last, hparse, hclasspath, hcompile, unit, hmem, outline, houtline, hclean,
    himports, fun i hi => ?_⟩
  have hplatform : isPlatformName i.name = false := by
    have hname : (i.name, i.isStatic, i.onDemand) ∈
        [("lib.L", false, false), ("lib.L.m", true, false), ("box", false, true)] :=
      himports ▸ List.mem_map_of_mem hi
    have hall : ∀ found ∈ [("lib.L", false, false), ("lib.L.m", true, false), ("box", false, true)],
        isPlatformName found.1 = false := by decide +kernel
    exact hall (i.name, i.isStatic, i.onDemand) hname
  exact ⟨hplatform, hknown unit hmem outline houtline hclean i hi hplatform⟩

end JavaOutline
