/-
**Naming a file again at the end of a command line.**

With the file once more at its end a command line is accepted as before, and its batch has one more
unit.  The visit passes over that unit, because its file was handled when the visit comes to it.  But
the unit was entered like all others before the visit began, and a unit that declares a type is
broken by then.  So the repetition does no harm exactly if the file declares no type.

Main definitions:

* `Filtered` — a command line whose flags are good, also with one more argument;
* `compiledFor`, `Completion.batch` — the batch of a command line;
* `Options.naming` — the options with one more file.

Main results:

* `filterArguments_filtered`, `Options.parseFrom_append` — one more source at the end of a command
  line;
* `findsNoErrors_repeated` — the two batches side by side, if the file declares nothing;
* `run_repeated` — **when a file may be named again, and what the run gives then**;
* `not_harmless_class` — a class may not be named again.
-/

import JavaOutline.Proofs.RepeatedSource
import JavaOutline.Proofs.Sights

set_option autoImplicit false

namespace JavaOutline

/-! ### One more argument -/

/-- Whether an argument is a verbosity flag. -/
def FlagStyle.isFlag (style : FlagStyle) (argument : String) : Bool :=
  match style.form with
  | .equals => (style.inline? argument).isSome
  | .separate => argument == style.name

/-- How an argument that is no flag is passed over. -/
theorem filterArguments_plain {style : FlagStyle} {argument : String}
    (h : style.isFlag argument = false) (session : Session) (rest : List String) :
    (session.filterArguments style (argument :: rest)).value =
      ((session.filterArguments style rest).value.1.map (argument :: ·),
        (session.filterArguments style rest).value.2) := by
  unfold FlagStyle.isFlag at h
  cases hform : style.form with
  | equals =>
      have hinline : style.inline? argument = none := by simpa [hform] using h
      rw [Session.filterArguments.eq_def]
      simp only [hform, hinline, Logged.value_bind, Logged.value_pure]
  | separate =>
      have hname : argument ≠ style.name := by simpa [hform] using h
      rw [Session.filterArguments.eq_def]
      simp only [hform, if_neg hname, Logged.value_bind, Logged.value_pure]

/-- What is left of a command line with good flags, and the session afterwards: what is left are no
flags, and one more argument that is none is left too. -/
structure Filtered (style : FlagStyle) (session : Session) (arguments remaining : List String)
    (after : Session) : Prop where
  plain : ∀ argument ∈ remaining, style.isFlag argument = false
  append : ∀ last, style.isFlag last = false →
    (session.filterArguments style (arguments ++ [last])).value = (.ok (remaining ++ [last]), after)

/-- An argument that is no flag in front. -/
theorem Filtered.cons {style : FlagStyle} {session after : Session} {argument : String}
    {arguments remaining : List String} (h : Filtered style session arguments remaining after)
    (hflag : style.isFlag argument = false) :
    Filtered style session (argument :: arguments) (argument :: remaining) after where
  plain := List.forall_mem_cons.2 ⟨hflag, h.plain⟩
  append last hlast := by
    rw [List.cons_append, filterArguments_plain hflag, h.append last hlast]
    rfl

theorem filterArguments_filtered {style : FlagStyle} {session after : Session}
    {arguments remaining : List String}
    (h : (session.filterArguments style arguments).value = (.ok remaining, after)) :
    Filtered style session arguments remaining after := by
  fun_induction Session.filterArguments style session arguments generalizing remaining with
  | case1 session =>
      obtain ⟨hleft, rfl⟩ := Prod.mk.inj h
      cases hleft
      refine ⟨by simp, fun last hlast => ?_⟩
      rw [List.nil_append, filterArguments_plain hlast]
      rfl
  | case2 session argument rest hform hplain ih =>
      obtain ⟨hmap, hafter⟩ := Prod.mk.inj h
      obtain ⟨later, hlater, rfl⟩ := exists_of_map_eq_ok hmap
      exact (ih (Prod.ext hlater hafter)).cons (by simp [FlagStyle.isFlag, hform, hplain])
  | case3 session argument rest hform payload hflag ih =>
      rcases applyFlag_session session argument payload with ⟨e, he⟩ | ⟨level, hlevel⟩
      · simp only [Logged.value_bind, he] at h
        cases h
      · simp only [Logged.value_bind, hlevel] at h
        have hlater := ih _ h
        refine ⟨hlater.plain, fun last hlast => ?_⟩
        rw [List.cons_append, Session.filterArguments.eq_def]
        simp only [hform, hflag, Logged.value_bind, hlevel]
        exact hlater.append last hlast
  | case4 session hform => cases h
  | case5 session hform payload rest ih =>
      rcases applyFlag_session session style.name payload with ⟨e, he⟩ | ⟨level, hlevel⟩
      · simp only [Logged.value_bind, he] at h
        cases h
      · simp only [Logged.value_bind, hlevel] at h
        have hlater := ih _ h
        refine ⟨hlater.plain, fun last hlast => ?_⟩
        rw [List.cons_append, List.cons_append, Session.filterArguments.eq_def]
        simp only [hform, if_true, Logged.value_bind, hlevel]
        exact hlater.append last hlast
  | case6 session argument rest hform hplain ih =>
      obtain ⟨hmap, hafter⟩ := Prod.mk.inj h
      obtain ⟨later, hlater, rfl⟩ := exists_of_map_eq_ok hmap
      exact (ih (Prod.ext hlater hafter)).cons (by simp [FlagStyle.isFlag, hform, hplain])

namespace Options

/-- Whether an argument names a source. -/
def isSource (argument : String) : Bool :=
  Text.endsWith argument ".java" && !Text.beginsWith argument "-"

variable {options next : Options} {argument : String}

theorem valued?_source (h : isSource argument = true) (options : Options) :
    options.valued? argument = none := by
  unfold valued?
  split
  all_goals first | rfl | exact absurd h (by decide +kernel)

theorem plain_source (h : isSource argument = true) (options : Options) :
    options.plain argument = .ok { options with files := options.files ++ [argument] } := by
  obtain ⟨hjava, hdash⟩ := Bool.and_eq_true_iff.1 h
  -- An argument without a dash in front begins with none of the options.
  have hoption (option : String) (hbegin : Text.beginsWith option "-" = true) :
      Text.beginsWith argument option = false := by
    refine Bool.eq_false_iff.2 fun hargument => ?_
    have hprefix := (List.isPrefixOf_iff_prefix.1 hbegin).trans
      (List.isPrefixOf_iff_prefix.1 hargument)
    rw [Text.beginsWith, List.isPrefixOf_iff_prefix.2 hprefix] at hdash
    cases hdash
  have hother (option : String) (hbegin : Text.beginsWith option "-" = true) :
      argument ≠ option := by
    rintro rfl
    rw [hbegin] at hdash
    cases hdash
  unfold plain
  rw [if_neg (hother "-nowarn" rfl), if_neg (hother "-proceedOnError" rfl),
    if_neg (hother "-g" rfl), hoption "-g:" rfl, hoption "-warn:" rfl, hoption "-1." rfl,
    if_neg Bool.false_ne_true, if_neg Bool.false_ne_true, if_neg Bool.false_ne_true]
  exact if_pos h

/-- An argument that stands by itself names a source, or adds no file. -/
theorem plain_isSource (h : options.plain argument = .ok next) :
    next.files = options.files ∨
      (isSource argument = true ∧ next.files = options.files ++ [argument]) := by
  unfold plain at h
  split at h
  · exact .inl (by cases h; rfl)
  · split at h
    · exact .inl (by cases h; rfl)
    · split at h
      · exact .inl (by cases h; rfl)
      · split at h
        · exact .inl (by cases h; rfl)
        · split at h
          · exact .inl (by cases h; rfl)
          · split at h
            · exact .inl (withLevel_files h)
            · split at h
              next hsource => exact .inr ⟨hsource, by cases h; rfl⟩
              next => cases h

/-- The files that a command line adds name sources. -/
theorem parseFrom_isSource {arguments : List String} (h : options.parseFrom arguments = .ok next)
    {file : String} (hfile : file ∈ next.files) : file ∈ options.files ∨ isSource file = true := by
  fun_induction parseFrom options arguments with
  | case1 options =>
      cases h
      exact .inl hfile
  | case2 options argument rest _ middle hplain ih =>
      refine (ih h).elim (fun hmiddle => ?_) .inr
      rcases plain_isSource hplain with hfiles | ⟨hsource, hfiles⟩
      · exact .inl (hfiles ▸ hmiddle)
      · rw [hfiles, List.mem_append, List.mem_singleton] at hmiddle
        rcases hmiddle with hold | rfl
        · exact .inl hold
        · exact .inr hsource
  | case3 => cases h
  | case4 => cases h
  | case5 options argument effect heffect value rest middle hvalue ih =>
      rw [← valued?_files heffect hvalue]
      exact ih h
  | case6 => cases h

/-- One more source behind the others is one more file. -/
theorem parseFrom_append {arguments : List String} (h : options.parseFrom arguments = .ok next)
    {file : String} (hfile : isSource file = true) :
    options.parseFrom (arguments ++ [file]) = .ok { next with files := next.files ++ [file] } := by
  fun_induction parseFrom options arguments with
  | case1 options =>
      cases h
      simp only [List.nil_append, parseFrom, valued?_source hfile, plain_source hfile]
  | case2 options argument rest hvalued middle hplain ih =>
      rw [List.cons_append, parseFrom.eq_def]
      simp only [hvalued, hplain]
      exact ih h
  | case3 => cases h
  | case4 => cases h
  | case5 options argument effect heffect value rest middle hvalue ih =>
      rw [List.cons_append, List.cons_append, parseFrom.eq_def]
      simp only [heffect, hvalue]
      exact ih h
  | case6 => cases h

end Options

/-! ### The batch of a command line -/

section CommandLines

open SourceFrontEnd

/-- The front end when a command line was read. -/
def SourceFrontEnd.configured (front : SourceFrontEnd) (options : Options) : SourceFrontEnd :=
  { front with options := Batch.readOnly options, types := {}, globalErrors := 0 }

/-- The batch of a command line with some options, when it is complete. -/
def compiledFor (tree : FileTree) (reading : ReadingPreferences) (front : SourceFrontEnd)
    (options : Options) : Completion :=
  compiled tree reading options.files (front.configured options)

/-- The batch that a run visits. -/
def SourceFrontEnd.Completion.batch (state : Completion) (options : Options) : Batch where
  level := options.sourceLevel
  registry := state.registry
  requested := options.files
  globalErrors := state.front.globalErrors

theorem SourceFrontEnd.Completion.level_batch (state : Completion) (options : Options) :
    (state.batch options).level = options.sourceLevel := rfl

variable {tree : FileTree} {reading : ReadingPreferences} {front : SourceFrontEnd} {options : Options}

theorem compiledFor_holds (tree : FileTree) (reading : ReadingPreferences)
    (front : SourceFrontEnd) (options : Options) :
    ∃ added, Holds options.files added (compiledFor tree reading front options).registry
      (compiledFor tree reading front options).front.globalErrors := by
  have hholds := ofSources_holds tree reading options.files (front.configured options)
  rw [value_ofSources] at hholds
  exact hholds

/-- The batch that arguments ask for which the front end accepts. -/
theorem compile_compiledFor {arguments : List String}
    (hoptions : Options.parse arguments = .ok options) :
    (Batch.compile (sourceFrontEnd tree) tree reading arguments front).value =
      (.ok ((compiledFor tree reading front options).batch options),
        (compiledFor tree reading front options).front) := by
  have hconfigure : ((sourceFrontEnd tree).configure arguments front).value =
      (.ok (options.files.map fun file => { file, origin := .requested }),
        { front with options, types := {}, globalErrors := 0 }) := by
    simp [sourceFrontEnd, SourceFrontEnd.configure, hoptions]
  rw [compile_configured hconfigure]
  have hrequested : ((options.files.map fun file =>
      ({ file, origin := .requested } : SourceFile)).filter
        (·.origin == SourceOrigin.requested)).map SourceFile.file = options.files := by
    simp [List.filter_map, Function.comp_def]
  have hsources := value_ofSources tree reading options.files (front.configured options)
  unfold SourceFrontEnd.configured at hsources
  simp only [sourceFrontEnd] at hsources ⊢
  simp only [hsources, hrequested]
  rfl

/-- What a command line comes to that is accepted. -/
theorem commandLine_compiledFor {settings : RunSettings} {arguments remaining : List String}
    {state : RunState SourceFrontEnd TreeBuilder} {session : Session}
    (hfilter : (state.session.filterArguments settings.flag arguments).value =
      (.ok remaining, session)) (hoptions : Options.parse remaining = .ok options) :
    commandLine (sourceFrontEnd tree) tree settings arguments state =
      let last := compiledFor tree settings.reading state.front options
      (.ok (last.batch options), { state with front := last.front, session }) := by
  rw [commandLine, hfilter]
  simp only [compile_compiledFor hoptions]

/-- A batch in which a run finds no errors has none. -/
theorem FindsNoErrors.clean {state : Completion} {session : Session}
    (h : FindsNoErrors session (state.batch options)) : state.Clean where
  errors := h.read
  units place unit hunit := by
    refine Bool.eq_false_iff.2 fun hbroken => ?_
    have hslot : some unit.unplaced ∈ state.registry.unplaced := by
      simp only [Registry.get?, Option.join_eq_some_iff] at hunit
      exact List.mem_map.2 ⟨some unit, List.mem_of_getElem? hunit, rfl⟩
    obtain ⟨view, hview, hviewed⟩ := exists_broken_sight hslot
      (show unit.unplaced.isBroken = true from hbroken) []
    rw [h.sound view hview] at hviewed
    cases hviewed

/-! ### A file that is named again -/

/-- The first units of a batch are those of the files that are named. -/
theorem Holds.mem_ahead {files added : List String} {registry : Registry} {errors : Nat}
    (h : Holds files added registry errors) {ahead behind : List (Option CompilationUnit)}
    (hslots : registry.unplaced = ahead ++ behind) (hlength : ahead.length = files.length)
    {file : String} (hfile : file ∈ files) : ∃ unit, some unit ∈ ahead ∧ unit.file = file := by
  have hidentities : registry.unplaced.map (Option.map CompilationUnit.identity) =
      registry.slots.map (Option.map CompilationUnit.identity) := by
    rw [Registry.unplaced, List.map_map]
    refine List.map_congr_left fun slot _ => ?_
    cases slot <;> rfl
  rw [h.identities, hslots, List.map_append] at hidentities
  have hahead := List.append_inj_left hidentities (by simp [hlength])
  have hmem : some (file, SourceOrigin.requested) ∈
      ahead.map (Option.map CompilationUnit.identity) := by
    rw [hahead]
    exact List.mem_map.2 ⟨file, hfile, rfl⟩
  obtain ⟨slot, hslot, hmap⟩ := List.mem_map.1 hmem
  obtain ⟨unit, rfl, hunit⟩ := Option.map_eq_some_iff.1 hmap
  exact ⟨unit, hslot, congrArg Prod.fst hunit⟩

/-- The options of a command line with one more file. -/
def Options.naming (options : Options) (f : String) : Options :=
  { options with files := options.files ++ [f] }

section

variable {f : String} (hfile : f ∈ options.files)

include hfile

/-- A run sees the unit that is repeated as handled, and the others as before. -/
theorem batchSights_repeated {once twice : Completion} {extra : CompilationUnit}
    {added : List String} {errors : Nat}
    (h : once.Repeats (options.files ++ [f]) options.files.length extra twice)
    (hname : extra.file = f) (hholds : Holds options.files added once.registry errors)
    (session : Session) :
    ∃ first rest, first.length = options.files.length ∧
      batchSights session (once.batch options) = first ++ rest ∧
      batchSights session (twice.batch (options.naming f)) =
        first ++ some ({ extra with state := .alreadyProcessed }, false) :: rest := by
  obtain ⟨ahead, behind, hlength, honce, htwice⟩ := h.slots
  obtain ⟨unit, hunit, hunitname⟩ := hholds.mem_ahead honce hlength hfile
  have hwanted : (twice.batch (options.naming f)).isRequested =
      (once.batch options).isRequested := by
    funext file
    by_cases hsame : file = f
    · simp [Batch.isRequested, Completion.batch, Options.naming, hsame, hfile]
    · simp [Batch.isRequested, Completion.batch, Options.naming, hsame]
  have hrequested : (once.batch options).isRequested extra.file = true := by
    rw [hname]
    simpa [Batch.isRequested, Completion.batch] using hfile
  obtain ⟨first, rest, hfirst, hviews, hviews'⟩ :=
    sights_repeated session hunit (hunitname.trans hname.symm) hrequested behind
  refine ⟨first, rest, hfirst.trans hlength, ?_, ?_⟩
  · rw [← hviews, ← honce]
    rfl
  · rw [← hviews', ← htwice, ← hwanted]
    rfl

/-- Where a file is named again and no errors are found, it declares nothing. -/
theorem FindsNoErrors.declaresNothing
    (hreading : ReadsAlike reading front.sizeLimit options.files.length) {session : Session}
    (h : FindsNoErrors session
      ((compiledFor tree reading front (options.naming f)).batch (options.naming f))) :
    ∃ text, (sourceAmong tree reading options.files.length f).contents tree front.sizeLimit =
        .ok text ∧ DeclaresNothing text := by
  have hclean : (compiled tree reading (options.files ++ [f])
    (front.configured (options.naming f))).Clean := h.clean
  obtain ⟨text, htext, hnothing⟩ := declaresNothing_of_clean hfile hclean
  refine ⟨text, ?_, hnothing⟩
  rw [← (hreading.sourceAmong tree f).2.2]
  exact htext

/-- If the file declares nothing, the run finds errors in both batches or in none, and it sees one unit
more that it passes over. -/
theorem findsNoErrors_repeated (hreading : ReadsAlike reading front.sizeLimit options.files.length)
    {text : String}
    (htext : (sourceAmong tree reading options.files.length f).contents tree front.sizeLimit =
      .ok text) (hnothing : DeclaresNothing text) (session : Session) :
    let once := (compiledFor tree reading front options).batch options
    let twice := (compiledFor tree reading front (options.naming f)).batch (options.naming f)
    (FindsNoErrors session twice ↔ FindsNoErrors session once) ∧
      ∃ first rest extra, first.length = options.files.length ∧ extra.file = f ∧
        extra.state = .alreadyProcessed ∧ batchSights session once = first ++ rest ∧
        batchSights session twice = first ++ some (extra, false) :: rest := by
  intro once twice
  have htext' : (sourceAmong tree reading options.files.length f).contents tree
      (front.configured options).sizeLimit = .ok text := htext
  obtain ⟨extra, hrepeats, hname, hbroken⟩ := compiled_repeats hfile htext' hnothing hreading
  obtain ⟨added, hholds⟩ := compiledFor_holds tree reading front options
  obtain ⟨first, rest, hfirst, hviews, hviews'⟩ :=
    batchSights_repeated hfile hrepeats hname hholds session
  have herrors : twice.globalErrors = once.globalErrors := by
    have hfront := congrArg SourceFrontEnd.globalErrors hrepeats.front
    exact hfront
  let handled : CompilationUnit := { extra with state := .alreadyProcessed }
  refine ⟨⟨fun h => ⟨herrors ▸ h.read, fun view hview => h.sound view ?_⟩,
    fun h => ⟨herrors.trans h.read, fun view hview => ?_⟩⟩,
    first, rest, handled, hfirst, hname, rfl, hviews, hviews'⟩
  · have hview' : some view ∈ first ++ rest := hviews ▸ hview
    have hmore : some view ∈ first ++ some (handled, false) :: rest := by
      simp only [List.mem_append, List.mem_cons] at hview' ⊢
      exact hview'.imp_right .inr
    exact hviews' ▸ hmore
  · have hview' : some view ∈ first ++ some (handled, false) :: rest := hviews' ▸ hview
    simp only [List.mem_append, List.mem_cons, Option.some.injEq] at hview'
    rcases hview' with hold | rfl | hold
    · exact h.sound view (hviews ▸ List.mem_append_left _ hold)
    · exact Bool.eq_false_iff.2 fun htrue => hbroken htrue h.clean
    · exact h.sound view (hviews ▸ List.mem_append_right _ hold)

end

/-- A unit that is passed over is not selected. -/
theorem selectedViews_passed (first rest : List (Option (CompilationUnit × Bool)))
    (unit : CompilationUnit) :
    selectedViews (first ++ some (unit, false) :: rest) = selectedViews (first ++ rest) := by
  simp [selectedViews]

/-- The runs of the two batches, from states with the same session and the same trees. -/
theorem runBatch_repeated (tree : FileTree) {f : String} (hfile : f ∈ options.files)
    (hreading : ReadsAlike reading front.sizeLimit options.files.length)
    (before before' : RunState SourceFrontEnd TreeBuilder)
    (hsession : before'.session = before.session) (hbuilder : before'.builder = before.builder)
    (hpending : before.builder.pending = []) :
    let batch := (compiledFor tree reading front options).batch options
    let batch' := (compiledFor tree reading front (options.naming f)).batch (options.naming f)
    let once := (runBatch (sourceFrontEnd tree) treeBuilder batch before).value
    let twice := (runBatch (sourceFrontEnd tree) treeBuilder batch' before').value
    ((∃ outcome, twice.1 = .ok outcome) ↔
      (∃ outcome, once.1 = .ok outcome) ∧
        ∃ text, tree.read f = .ok text ∧ DeclaresNothing text) ∧
    ∀ outcome again, once.1 = .ok outcome → twice.1 = .ok again →
      again.selected = outcome.selected ∧ again.rebuilt = outcome.rebuilt ∧
      twice.2.builder.units = once.2.builder.units ∧
      ∃ ahead behind extra,
        ahead.length = options.files.length ∧ extra.file = f ∧ extra.state = .alreadyProcessed ∧
        (visitedRegistry (sourceFrontEnd tree) treeBuilder batch before).unplaced =
          ahead ++ behind ∧
        (visitedRegistry (sourceFrontEnd tree) treeBuilder batch' before').unplaced =
          ahead ++ some extra :: behind := by
  intro batch batch' once twice
  obtain ⟨added, hholds⟩ :
      ∃ added, Holds options.files added batch.registry batch.globalErrors :=
    compiledFor_holds tree reading front options
  obtain ⟨added', hholds'⟩ :
      ∃ added, Holds (options.naming f).files added batch'.registry batch'.globalErrors :=
    compiledFor_holds tree reading front (options.naming f)
  obtain ⟨hok, hgives⟩ := runBatch_sights tree before hholds hpending
  obtain ⟨hok', hgives'⟩ := runBatch_sights tree before' hholds' (hbuilder ▸ hpending)
  rw [hsession] at hok' hgives'
  refine ⟨(hok'.trans ⟨fun h => ?_, fun h => ?_⟩), fun outcome again honce htwice => ?_⟩
  · obtain ⟨text, htext, hnothing⟩ := h.declaresNothing hfile hreading
    have hread := htext
    rw [contents_sourceAmong] at hread
    exact ⟨hok.2 ((findsNoErrors_repeated hfile hreading htext hnothing _).1.1 h), text,
      read_of_readSource hread, hnothing⟩
  · obtain ⟨hends, text, hread, hnothing⟩ := h
    have hclean : (compiled tree reading options.files (front.configured options)).Clean :=
      (hok.1 hends).clean
    obtain ⟨found, hfound⟩ := contents_of_clean hfile hclean
    have htext := hfound
    rw [contents_sourceAmong] at hfound
    obtain rfl : text = found := Except.ok.inj (hread.symm.trans (read_of_readSource hfound))
    exact (findsNoErrors_repeated hfile hreading htext hnothing _).1.2 (hok.1 hends)
  · obtain ⟨text, htext, hnothing⟩ := (hok'.1 ⟨again, htwice⟩).declaresNothing hfile hreading
    obtain ⟨-, first, rest, extra, hfirst, hname, hstate, hviews, hviews'⟩ :=
      findsNoErrors_repeated hfile hreading htext hnothing before.session
    obtain ⟨hselected, hrebuilt, hunits, hvisited⟩ := hgives outcome honce
    obtain ⟨hselected', hrebuilt', hunits', hvisited'⟩ := hgives' again htwice
    have hsame : selectedViews (batchSights before.session batch') =
        selectedViews (batchSights before.session batch) := by
      rw [hviews, hviews', selectedViews_passed]
    refine ⟨?_, ?_, ?_, first.map (Option.map Prod.fst), rest.map (Option.map Prod.fst), extra, ?_,
      hname, hstate, ?_, ?_⟩
    · rw [hselected, hselected', hsame]
    · rw [hrebuilt, hrebuilt', hsame]
    · have hlevel : batch'.level = batch.level := by
        rw [Completion.level_batch, Completion.level_batch]
        rfl
      rw [hunits, hunits', hsame, hbuilder, hlevel]
    · rw [List.length_map, hfirst]
    · rw [hvisited, hviews, List.map_append]
    · rw [hvisited', hviews', List.map_append]
      rfl

/-- **A file that a command line names again does no harm exactly if it declares no type.**  Then the
run comes to its end if it does without, it selects and rebuilds the same files and builds the same
trees, and the batch that it visits is the same with one more unit, which counts as handled. -/
theorem run_repeated (tree : FileTree) (settings : RunSettings) (arguments : List String)
    (state : RunState SourceFrontEnd TreeBuilder) {remaining : List String} {options : Options}
    {f : String} (hpending : state.builder.pending = [])
    (hfilter : (state.session.filterArguments settings.flag arguments).value.1 = .ok remaining)
    (hoptions : Options.parse remaining = .ok options) (hfile : f ∈ options.files)
    (hreading : ReadsAlike settings.reading state.front.sizeLimit options.files.length) :
    let once := (run (sourceFrontEnd tree) treeBuilder tree settings arguments state).value
    let twice := (run (sourceFrontEnd tree) treeBuilder tree settings (arguments ++ [f]) state).value
    ((∃ outcome, twice.1 = .ok outcome) ↔
      (∃ outcome, once.1 = .ok outcome) ∧
        ∃ text, tree.read f = .ok text ∧ DeclaresNothing text) ∧
    ∀ outcome again, once.1 = .ok outcome → twice.1 = .ok again →
      again.selected = outcome.selected ∧ again.rebuilt = outcome.rebuilt ∧
      twice.2.builder.units = once.2.builder.units ∧
      ∃ batch before batch' before' ahead behind extra,
        commandLine (sourceFrontEnd tree) tree settings arguments state = (.ok batch, before) ∧
        commandLine (sourceFrontEnd tree) tree settings (arguments ++ [f]) state =
          (.ok batch', before') ∧
        ahead.length = options.files.length ∧ extra.file = f ∧ extra.state = .alreadyProcessed ∧
        (visitedRegistry (sourceFrontEnd tree) treeBuilder batch before).unplaced =
          ahead ++ behind ∧
        (visitedRegistry (sourceFrontEnd tree) treeBuilder batch' before').unplaced =
          ahead ++ some extra :: behind := by
  -- The command line is accepted with the file once more, and nothing else about it changes.
  let session := (state.session.filterArguments settings.flag arguments).value.2
  have hfilter' : (state.session.filterArguments settings.flag arguments).value =
      (.ok remaining, session) := Prod.ext hfilter rfl
  have hfiltered := filterArguments_filtered hfilter'
  have hplain := hfiltered.plain f ((Options.parse_files hoptions).subset hfile)
  have hsource := (Options.parseFrom_isSource hoptions hfile).resolve_left List.not_mem_nil
  have hline : commandLine (sourceFrontEnd tree) tree settings arguments state = _ :=
    commandLine_compiledFor hfilter' hoptions
  have hline' : commandLine (sourceFrontEnd tree) tree settings (arguments ++ [f]) state = _ :=
    commandLine_compiledFor (hfiltered.append f hplain)
      (Options.parseFrom_append hoptions hsource)
  let before (options : Options) : RunState SourceFrontEnd TreeBuilder :=
    { state with front := (compiledFor tree settings.reading state.front options).front, session }
  obtain ⟨hends, hgives⟩ := runBatch_repeated tree hfile hreading (before options)
    (before (options.naming f)) rfl rfl hpending
  rw [value_run, value_run, hline, hline']
  refine ⟨hends, fun outcome again h h' => ?_⟩
  obtain ⟨hselected, hrebuilt, hunits, ahead, behind, extra, hviews⟩ := hgives outcome again h h'
  exact ⟨hselected, hrebuilt, hunits, _, _, _, _, ahead, behind, extra, rfl, rfl, hviews⟩

/-- A class, and a file that names a package only. -/
def packageTree : FileTree where
  entries := [(["A.java"], .file "class A \x7b \x7d".toUTF8),
    (["package-info.java"], .file "package p;".toUTF8)]

theorem eq_ok_of_toOption {ε α : Type} {answer : Except ε α} {a : α}
    (h : answer.toOption = some a) : answer = .ok a := by
  cases answer with
  | error => cases h
  | ok b => exact congrArg Except.ok (Option.some.inj h)

/-- The file that names a package can be named again, and its second unit counts as handled. -/
theorem run_repeated_package :
    let arguments := ["A.java", "package-info.java"]
    freshState.builder.pending = [] ∧ Options.parse arguments = .ok { files := arguments } ∧
      "package-info.java" ∈ arguments ∧
      ∃ outcome again,
        (run (sourceFrontEnd packageTree) treeBuilder packageTree {} arguments
          freshState).value.1 = .ok outcome ∧
        (run (sourceFrontEnd packageTree) treeBuilder packageTree {}
          (arguments ++ ["package-info.java"]) freshState).value.1 = .ok again ∧
        again.selected = outcome.selected ∧ again.rebuilt = outcome.rebuilt ∧
        (run (sourceFrontEnd packageTree) treeBuilder packageTree {}
          (arguments ++ ["package-info.java"]) freshState).value.2.builder.units =
            (run (sourceFrontEnd packageTree) treeBuilder packageTree {} arguments
              freshState).value.2.builder.units := by
  intro arguments
  have hfilter : (freshState.session.filterArguments ({} : RunSettings).flag arguments).value.1 =
      .ok arguments := eq_ok_of_toOption (by decide +kernel)
  have hoptions : Options.parse arguments = .ok { files := arguments } :=
    eq_ok_of_toOption (by decide +kernel)
  have hfile : "package-info.java" ∈ arguments := List.mem_cons_of_mem _ List.mem_cons_self
  obtain ⟨hends, hgives⟩ :=
    run_repeated packageTree {} arguments freshState rfl hfilter hoptions hfile (.inl rfl)
  have hread : packageTree.read "package-info.java" = .ok "package p;" :=
    eq_ok_of_toOption (by decide +kernel)
  have hnothing : DeclaresNothing "package p;" := ⟨by decide +kernel, by decide +kernel⟩
  have honce : (run (sourceFrontEnd packageTree) treeBuilder packageTree {} arguments
      freshState).value.1.toOption.isSome = true := by decide +kernel
  obtain ⟨outcome, houtcome⟩ := Option.isSome_iff_exists.1 honce
  have houtcome := eq_ok_of_toOption houtcome
  obtain ⟨again, hagain⟩ := hends.2 ⟨⟨outcome, houtcome⟩, _, hread, hnothing⟩
  obtain ⟨hselected, hrebuilt, hunits, -⟩ := hgives outcome again houtcome hagain
  exact ⟨rfl, hoptions, hfile, outcome, again, houtcome, hagain, hselected, hrebuilt, hunits⟩

/-- A class cannot be named again: the run that names it once comes to its end, and the run that names
it twice does not. -/
theorem not_harmless_class :
    let tree : FileTree := { entries := [(["A.java"], .file "class A \x7b \x7d".toUTF8)] }
    ¬ ((∃ outcome, (run (sourceFrontEnd tree) treeBuilder tree {} (["A.java"] ++ ["A.java"])
        freshState).value.1 = .ok outcome) ↔
      ∃ outcome, (run (sourceFrontEnd tree) treeBuilder tree {} ["A.java"]
        freshState).value.1 = .ok outcome) := by
  intro tree h
  have honce : (run (sourceFrontEnd tree) treeBuilder tree {} ["A.java"]
      freshState).value.1.toOption.isSome = true := by decide +kernel
  have htwice : (run (sourceFrontEnd tree) treeBuilder tree {} (["A.java"] ++ ["A.java"])
      freshState).value.1.toOption.isSome = false := by decide +kernel
  obtain ⟨outcome, houtcome⟩ := Option.isSome_iff_exists.1 honce
  obtain ⟨again, hagain⟩ := h.2 ⟨outcome, eq_ok_of_toOption houtcome⟩
  rw [hagain] at htwice
  cases htwice

end CommandLines

end JavaOutline
