/-
**Runs over source files that build trees.**

With the front end over source files and the builder that keeps trees, nothing can go wrong once the
units of a batch were checked: every unit that was selected has an outline with all its bodies, and
the builder takes every outline.  So such a run is rejected and leaves the trees as they are, or it
adds one tree for every file of the command line that was not handled before.

Main definitions:

* `CompilationUnit.tree?` — the tree of a unit;
* `newFiles` — the files of a command line that a run rebuilds.

Main results:

* `process_ready` — a unit whose source was read is ready to be rebuilt after its check;
* `rebuildFrom_trees` — units that are ready all become trees;
* `chosenUnits_files` — the units that are chosen are those of the command line that are new;
* `run_trees` — how a run ends, and the trees it leaves.
-/

import JavaOutline.Proofs.Rejection
import JavaOutline.Proofs.Selection
import JavaOutline.Proofs.SourceBatch
import JavaOutline.Proofs.TreeBuilding

set_option autoImplicit false

namespace JavaOutline

/-! ### Units that are ready -/

/-- A unit whose source was read is ready to be rebuilt after its check, and it stays what it is. -/
theorem process_ready (tree : FileTree) {unit : CompilationUnit} (h : unit.IsRead) (index : Nat)
    (front : SourceFrontEnd) :
    ∃ outline, ((sourceFrontEnd tree).process unit index front).value.1.readyOutline =
      .ok outline := by
  obtain ⟨houtline, hsource⟩ := h
  obtain ⟨outline, houtline⟩ := Option.isSome_iff_exists.1 houtline
  obtain ⟨source, hsource⟩ := Option.isSome_iff_exists.1 hsource
  have hbodies : (SourceFrontEnd.completeBodies unit).outline =
      some (outline.complete source).1 := by
    simp [SourceFrontEnd.completeBodies, houtline, hsource]
  have hcheck : ((sourceFrontEnd tree).process unit index front).value.1.outline =
      some (outline.complete source).1 := by
    have hvalue : ((sourceFrontEnd tree).process unit index front).value.1 =
        SourceFrontEnd.check (SourceFrontEnd.completeBodies unit) := rfl
    rw [hvalue, SourceFrontEnd.check, hbodies]
    exact hbodies
  refine ⟨(outline.complete source).1, ?_⟩
  simp [CompilationUnit.readyOutline, hcheck, Outline.complete_hasUnparsedBodies]

/-- The tree of a unit, if it has an outline. -/
def CompilationUnit.tree? (level : LanguageLevel) (unit : CompilationUnit) : Option TreeNode :=
  unit.outline.map (·.tree unit.file level)

theorem tree?_of_ready {unit : CompilationUnit} {outline : Outline}
    (h : unit.readyOutline = .ok outline) (level : LanguageLevel) :
    unit.tree? level = some (outline.tree unit.file level) := by
  unfold CompilationUnit.readyOutline at h
  split at h
  · cases h
  · rename_i found hfound
    split at h
    · cases h
    · cases h
      simp [CompilationUnit.tree?, hfound]

/-- Units that are ready all become trees, in order. -/
theorem rebuildFrom_trees (level : LanguageLevel) (verbosity : Nat) {units : List CompilationUnit}
    (hready : ∀ unit ∈ units, ∃ outline, unit.readyOutline = .ok outline) (report : RebuildReport)
    (shop : Workshop TreeBuilder) (hpending : shop.builder.pending = []) :
    ∃ after conflicts,
      (rebuildFrom treeBuilder level verbosity units report shop).value =
        (.ok { report with rebuilt := report.rebuilt ++ units.map CompilationUnit.file }, after,
          { builder := { shop.builder with
              units := shop.builder.units ++ units.filterMap (CompilationUnit.tree? level) }
            conflicts }) := by
  induction units generalizing report shop with
  | nil => exact ⟨[], shop.conflicts, by simp [rebuildFrom_nil]⟩
  | cons unit units ih =>
      obtain ⟨outline, houtline⟩ := hready unit List.mem_cons_self
      have hunit : (rebuildUnit treeBuilder level verbosity unit shop).value = _ :=
        rebuildUnit_rebuilt houtline (feed_nodeEvents outline unit.file level hpending)
      obtain ⟨after, conflicts, hlater⟩ := ih
        (fun other hother => hready other (List.mem_cons_of_mem _ hother))
        { report with rebuilt := report.rebuilt ++ [unit.file] }
        { builder := { shop.builder with
            units := shop.builder.units ++ [outline.tree unit.file level] }
          conflicts := shop.conflicts.record unit.file outline } hpending
      refine ⟨{ unit with state := .rebuilt } :: after, conflicts, ?_⟩
      rw [rebuildFrom_rebuilt hunit, hlater, List.filterMap_cons_some (tree?_of_ready houtline level)]
      simp

/-- The trees of units that are ready are named like their files. -/
theorem names_of_trees (level : LanguageLevel) {units : List CompilationUnit}
    (hready : ∀ unit ∈ units, ∃ outline, unit.readyOutline = .ok outline) :
    (units.filterMap (CompilationUnit.tree? level)).map
        (fun tree => (tree.kind, tree.name)) =
      units.map fun unit => ("compilation_unit", some unit.file) := by
  induction units with
  | nil => rfl
  | cons unit units ih =>
      obtain ⟨outline, houtline⟩ := hready unit List.mem_cons_self
      have hkind : (outline.tree unit.file level).kind = "compilation_unit" :=
        kind_unitTreeNode unit.file outline.packageName level
      rw [List.filterMap_cons_some (tree?_of_ready houtline level), List.map_cons, List.map_cons,
        hkind, outline.name_tree,
        ih fun other hother => hready other (List.mem_cons_of_mem _ hother)]

/-! ### The units of a batch -/

section

variable {files added : List String} {registry : Registry} {errors : Nat}

/-- The files of a batch: those of the command line and then the others. -/
theorem Holds.unit_files (h : Holds files added registry errors) :
    (registry.slots.filterMap id).map CompilationUnit.file = files ++ added := by
  have hall := congrArg (List.filterMap (Option.map Prod.fst)) h.identities
  rw [List.filterMap_map, List.filterMap_append, List.filterMap_map, List.filterMap_map] at hall
  have hleft : (Option.map Prod.fst ∘ Option.map CompilationUnit.identity) =
      fun slot : Option CompilationUnit => (id slot).map CompilationUnit.file := by
    funext slot
    cases slot <;> rfl
  have hright : ∀ origin : SourceOrigin,
      (Option.map Prod.fst ∘ fun file : String => some (file, origin)) = some := fun _ => rfl
  rw [hleft, ← List.map_filterMap] at hall
  rw [hall, hright, hright, List.filterMap_some, List.filterMap_some]

/-- The units that others refer to have files that the command line does not name. -/
theorem Holds.closure_file (h : Holds files added registry errors) {unit : CompilationUnit}
    (hunit : unit ∈ registry.units) (horigin : unit.origin = .closure) : unit.file ∉ files := by
  obtain ⟨slot, hslot, hsome⟩ := List.mem_filterMap.1 hunit
  cases hsome
  have hidentity : some (unit.file, SourceOrigin.closure) ∈
      registry.slots.map (Option.map CompilationUnit.identity) := by
    rw [← horigin]
    exact List.mem_map.2 ⟨some unit, hslot, rfl⟩
  rw [h.identities] at hidentity
  rcases List.mem_append.1 hidentity with hnamed | hother
  · obtain ⟨file, -, hfile⟩ := List.mem_map.1 hnamed
    cases hfile
  · obtain ⟨file, hfile, hsame⟩ := List.mem_map.1 hother
    cases hsame
    exact h.other _ hfile

end

/-- The files of a command line that a run rebuilds: those that were not handled before, each at its
first place. -/
def newFiles (session : Session) (files : List String) : List String :=
  (files.filter fun file => !session.isProcessed file).eraseDups

section

variable (tree : FileTree) {batch : Batch} {files added : List String}

/-- The units that are chosen are those of the command line that are new. -/
theorem chosenUnits_files (hrequested : batch.requested = files)
    (h : Holds files added batch.registry batch.globalErrors)
    (before : RunState SourceFrontEnd TreeBuilder) :
    (chosenUnits (sourceFrontEnd tree) treeBuilder batch before).map CompilationUnit.file =
      newFiles before.session files := by
  have hask (file : String) (asked : TreeBuilder) :
      (askBuilder treeBuilder batch file asked).1 = batch.isRequested file := rfl
  unfold chosenUnits newFiles
  rw [chosenFrom_files (sourceFrontEnd_keepsFiles tree) hask, h.unit_files, List.filter_append]
  have hnone : added.filter (fun file => !before.session.isProcessed file &&
      !([] : List String).contains file && batch.isRequested file) = [] := by
    refine List.filter_eq_nil_iff.2 fun file hfile => ?_
    simp [Batch.isRequested, hrequested, h.other file hfile]
  rw [hnone, List.append_nil]
  congr 1
  refine List.filter_congr fun file hfile => ?_
  simp [Batch.isRequested, hrequested, hfile]

/-- The units that are chosen are ready, if all sources were read, whatever the builder answers. -/
theorem chosenUnits_ready {β : Type} (builder : Builder β) (hzero : batch.globalErrors = 0)
    (h : Holds files added batch.registry batch.globalErrors)
    (before : RunState SourceFrontEnd β) :
    ∀ unit ∈ chosenUnits (sourceFrontEnd tree) builder batch before,
      ∃ outline, unit.readyOutline = .ok outline := by
  intro unit hunit
  obtain ⟨source, place, front, hslot, rfl⟩ := chosenFrom_processed hunit
  exact process_ready tree (h.read hzero source hslot) place front

end

/-! ### Runs -/

/-- Marking files leaves the mark of failures alone. -/
theorem Session.failed_markAll (session : Session) (files : List String) :
    (session.markAll files).failed = session.failed := by
  rw [Session.markAll_eq]

/-- A batch can end when no unit is pending. -/
theorem endBatch_trees {builder : TreeBuilder} (h : builder.pending = []) :
    treeBuilder.endBatch builder =
      (.ok (), { builder with batchesCompleted := builder.batchesCompleted + 1 }) := by
  simp [treeBuilder, TreeBuilder.endBatch, h]

/-- Units that are ready are rebuilt, and the batch comes to its end. -/
theorem rebuildBatch_trees (level : LanguageLevel) {registry : Registry} {selected : List Nat}
    (state : RunState SourceFrontEnd TreeBuilder)
    (hready : ∀ unit ∈ registry.selected selected, ∃ outline, unit.readyOutline = .ok outline)
    (hpending : state.builder.pending = []) :
    ∃ outcome after,
      (rebuildBatch treeBuilder level registry selected state).value = (.ok outcome, after) ∧
        outcome.selected = filesAt registry selected ∧
        outcome.rebuilt = (registry.selected selected).map CompilationUnit.file ∧
        outcome.failures = [] ∧ after.session.failed = state.session.failed ∧
        after.builder.pending = [] ∧
        after.builder.units = state.builder.units ++
          (registry.selected selected).filterMap (CompilationUnit.tree? level) := by
  have hbegin : treeBuilder.beginBatch state.builder =
      (.ok (), { state.builder with batchesStarted := state.builder.batchesStarted + 1 }) := rfl
  obtain ⟨units, conflicts, hrebuild⟩ := rebuildFrom_trees level state.session.verbosity hready {}
    { builder := { state.builder with batchesStarted := state.builder.batchesStarted + 1 }
      conflicts := state.session.conflicts } hpending
  rw [rebuildBatch_rebuilt hbegin hrebuild]
  refine ⟨_, _, finishBatch_ended (endBatch_trees hpending), rfl, rfl, rfl, ?_, hpending, rfl⟩
  exact Session.failed_markAll _ _

/-- The visit leaves the trees as they are. -/
theorem visitBatch_trees (tree : FileTree) (batch : Batch)
    (before : RunState SourceFrontEnd TreeBuilder) :
    (visitBatch (sourceFrontEnd tree) treeBuilder batch before).asked = before.builder := by
  have hask (file : String) (asked : TreeBuilder) (h : asked = before.builder) :
      (askBuilder treeBuilder batch file asked).2 = before.builder := h
  exact selectFrom_asked hask 0 [] batch.registry.slots before.front rfl

/-- A run of a batch is rejected and leaves the trees as they are, or it adds a tree for every new
file of the command line. -/
theorem runBatch_trees (tree : FileTree) {batch : Batch} {files added : List String}
    (hrequested : batch.requested = files)
    (hholds : Holds files added batch.registry batch.globalErrors)
    (before : RunState SourceFrontEnd TreeBuilder) (hpending : before.builder.pending = []) :
    let after := (runBatch (sourceFrontEnd tree) treeBuilder batch before).value
    (∃ e, after.1 = .error e ∧ e.isRejection = true ∧ after.2.builder = before.builder) ∨
      ∃ outcome trees,
        after.1 = .ok outcome ∧ outcome.failures = [] ∧ outcome.rebuilt = outcome.selected ∧
        outcome.selected = newFiles before.session files ∧
        after.2.session.failed = before.session.failed ∧ after.2.builder.pending = [] ∧
        after.2.builder.units = before.builder.units ++ trees ∧
        trees.map (fun tree => (tree.kind, tree.name)) =
          outcome.selected.map fun file => ("compilation_unit", some file) := by
  have hasked := visitBatch_trees tree batch before
  rcases Nat.eq_zero_or_pos batch.globalErrors with hzero | hpos
  · cases hvisit : (visitBatch (sourceFrontEnd tree) treeBuilder batch before).answer with
    | error e =>
        rw [runBatch_diagnostics hzero hvisit]
        exact .inl ⟨.diagnostics e, rfl, rfl, hasked⟩
    | ok selected =>
        -- What is rebuilt are the units that the visit chose, and all of them are ready.
        have hready := chosenUnits_ready tree treeBuilder hzero hholds before
        have hfiles := chosenUnits_files tree hrequested hholds before
        rw [← selected_visitedRegistry hvisit] at hready
        obtain ⟨outcome, after, hvalue, hselected, hrebuilt, hfailures, hfailed, hclosed, hunits⟩ :=
          rebuildBatch_trees batch.level
            (before.visited (visitBatch (sourceFrontEnd tree) treeBuilder batch before)) hready
            (by rw [← hpending, ← hasked]; rfl)
        have hnames := names_of_trees batch.level hready
        rw [filesAt_visitedRegistry hvisit] at hselected
        rw [selected_visitedRegistry hvisit] at hrebuilt hunits hnames
        rw [runBatch_selected hzero hvisit, hvalue]
        simp only [RunState.visited, hasked] at hunits
        refine .inr ⟨outcome, _, rfl, hfailures, hrebuilt.trans hselected.symm,
          hselected.trans hfiles, hfailed, hclosed, hunits, ?_⟩
        rw [hnames, hselected, List.map_map]
        rfl
  · rw [runBatch_globalErrors hpos]
    exact .inl ⟨_, rfl, rfl, rfl⟩

/-- A run is rejected and leaves the trees as they are, or it comes to its end with no failure and
adds one tree for every file of the command line that is new, at its first place.  Files that only
other units refer to get none. -/
theorem run_trees (tree : FileTree) (settings : RunSettings) (arguments : List String)
    (state : RunState SourceFrontEnd TreeBuilder) (hpending : state.builder.pending = []) :
    let after := (run (sourceFrontEnd tree) treeBuilder tree settings arguments state).value
    (∃ e, after.1 = .error e ∧ e.isRejection = true ∧ after.2.builder = state.builder) ∨
      ∃ outcome trees remaining options batch before,
        after.1 = .ok outcome ∧ outcome.failures = [] ∧ outcome.rebuilt = outcome.selected ∧
        after.2.session.failed = state.session.failed ∧ after.2.builder.pending = [] ∧
        (state.session.filterArguments settings.flag arguments).value.1 = .ok remaining ∧
        Options.parse remaining = .ok options ∧ options.files.Sublist arguments ∧
        outcome.selected = newFiles state.session options.files ∧
        after.2.builder.units = state.builder.units ++ trees ∧
        trees.map (fun tree => (tree.kind, tree.name)) =
          outcome.selected.map (fun file => ("compilation_unit", some file)) ∧
        commandLine (sourceFrontEnd tree) tree settings arguments state = (.ok batch, before) ∧
        ∀ unit ∈ batch.registry.units, unit.origin = .closure → unit.file ∉ outcome.selected := by
  obtain ⟨level, hsession, hbuilder⟩ :=
    commandLine_state (sourceFrontEnd tree) tree settings arguments state
  rw [value_run]
  rcases hline : commandLine (sourceFrontEnd tree) tree settings arguments state
    with ⟨answer, before⟩
  rw [hline] at hsession hbuilder
  cases answer with
  | error e => exact .inl ⟨.config e, rfl, rfl, hbuilder⟩
  | ok batch =>
      obtain ⟨remaining, hfilter, hcompile⟩ := commandLine_ok hline
      obtain ⟨options, added, hparse, hrequested, hholds⟩ := compile_holds hcompile
      have hkept := (filterArguments_session settings.flag state.session arguments).2 remaining
        (by rw [hfilter])
      simp only at hsession hbuilder
      rcases runBatch_trees tree hrequested hholds before (by rw [hbuilder, hpending]) with
        ⟨e, he, hreject, hkeeps⟩ |
          ⟨outcome, trees, hok, hfailures, hrebuilt, hselected, hfailed, hclosed, hunits, hnames⟩
      · exact .inl ⟨e, he, hreject, hkeeps.trans hbuilder⟩
      · rw [hsession] at hselected hfailed
        rw [hbuilder] at hunits
        refine .inr ⟨outcome, trees, remaining, options, batch, before, hok, hfailures, hrebuilt,
          hfailed, hclosed, by rw [hfilter], hparse, (Options.parse_files hparse).trans hkept,
          hselected, hunits, hnames, rfl, ?_⟩
        intro unit hunit horigin hmem
        rw [hselected] at hmem
        have hfile := (List.mem_filter.1 (List.mem_eraseDups.1 hmem)).1
        exact hholds.closure_file hunit horigin hfile

/-- A file that refers to another one on the sourcepath. -/
def inheritingTree : FileTree where
  entries := [(["A.java"], .file "class A extends B { }".toUTF8),
    (["B.java"], .file "class B { }".toUTF8)]

/-- The state before the first run. -/
def freshState : RunState SourceFrontEnd TreeBuilder where
  front := {}
  builder := {}

/-- The file that is named gets a tree, and the file that it refers to gets none. -/
theorem run_trees_inheriting :
    freshState.builder.pending = [] ∧
      ∃ outcome trees,
        (run (sourceFrontEnd inheritingTree) treeBuilder inheritingTree {}
          ["-sourcepath", ".", "A.java"] freshState).value.1 = .ok outcome ∧
        outcome.selected = ["A.java"] ∧ outcome.rebuilt = outcome.selected ∧
        (run (sourceFrontEnd inheritingTree) treeBuilder inheritingTree {}
          ["-sourcepath", ".", "A.java"] freshState).value.2.builder.units = trees ∧
        trees.map (fun tree => (tree.kind, tree.name)) =
          [("compilation_unit", some "A.java")] := by
  have hselected : (run (sourceFrontEnd inheritingTree) treeBuilder inheritingTree {}
      ["-sourcepath", ".", "A.java"] freshState).value.1.toOption.map
        (fun outcome => (outcome.selected, outcome.accepted.map Acceptance.file)) =
        some (["A.java"], ["A.java", "./B.java"]) := by decide +kernel
  refine ⟨rfl, ?_⟩
  rcases run_trees inheritingTree {} ["-sourcepath", ".", "A.java"] freshState rfl with
    ⟨e, he, -⟩ | ⟨outcome, trees, _, _, _, _, hok, -, hrebuilt, -, -, -, -, -, -, hunits, hnames, -⟩
  · rw [he] at hselected
    cases hselected
  · rw [hok] at hselected
    have hfiles : outcome.selected = ["A.java"] :=
      congrArg Prod.fst (Option.some.inj hselected)
    refine ⟨outcome, trees, hok, hfiles, hrebuilt, hunits, ?_⟩
    rw [hnames, hfiles]
    rfl

end JavaOutline
