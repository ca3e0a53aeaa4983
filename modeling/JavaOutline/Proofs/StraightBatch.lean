/-
**Straight batches.**

A batch is completed in one pass, and every reference is resolved with what is known when the pass
comes to it.  A file of the sourcepath may declare types that nobody would look for in it; such a type
is known behind the reference that brought the file in, and unknown before.  So the order of the files
can decide whether a batch has errors.  It does not where the batch is straight: whatever a file of
the sourcepath settles, the search for it would bring in just that file.

Main definitions:

* `Request.KnownFirst` — a reference that the files of the command line settle;
* `Request.searchedFor`, `Request.pathsFor` — what a file refers to and has to be searched for, and
  the files that such a search may bring in;
* `Request.Reached` — a file that a batch may come to, in whatever order;
* `Request.StraightAt`, `Request.Straight` — what a file of the sourcepath settles is found in that
  file;
* `Request.Final`, `Request.Below` — a batch that was completed without errors, and one that is being
  completed within it.

Main results:

* `Request.straight_within` — what there is to check of a batch;
* `Request.Final.found` — what a batch without errors asks for is in it;
* `Request.below_kept`, `Request.resolveAll_below` — in another order no other file is brought in, and
  nothing is left unresolved;
* `Request.compiled_perm` — **a straight batch has no errors in one order if it has none in another**.
-/

import Mathlib.Data.List.Perm.Subperm
import JavaOutline.Proofs.TidyBatch

set_option autoImplicit false

namespace JavaOutline

open SourceFrontEnd

theorem Reference.SettledBy.mono {reference : Reference} {names others : List String}
    (h : reference.SettledBy names) (hsub : names ⊆ others) : reference.SettledBy others := by
  rcases h with ⟨candidate, hcandidate, hname⟩ | ⟨package, hpackage, name, hname, hin⟩
  · exact .inl ⟨candidate, hcandidate, hsub hname⟩
  · exact .inr ⟨package, hpackage, name, hsub hname, hin⟩

namespace Request

variable {request : Request}

/-! ### Straight batches -/

/-- A reference needs no search from the start on: the files that are named settle it, or its package
is a directory on the sourcepath. -/
def KnownFirst (request : Request) (reference : Reference) : Prop :=
  reference.SettledBy (request.files.flatMap request.namesOf) ∨
    ∃ package ∈ reference.package,
      request.front.packageOnSourcepath request.tree package = true

instance (request : Request) (reference : Reference) : Decidable (request.KnownFirst reference) :=
  inferInstanceAs (Decidable (_ ∨ _))

/-- What a file refers to and has to be searched for. -/
def searchedFor (request : Request) (file : String) : List Reference :=
  (request.referencesOf file).filter fun reference => ¬ request.KnownFirst reference

theorem mem_searchedFor {file : String} {reference : Reference} :
    reference ∈ request.searchedFor file ↔
      reference ∈ request.referencesOf file ∧ ¬ request.KnownFirst reference := by
  simp [searchedFor]

/-- The files that a search for a reference may bring in. -/
def pathsFor (request : Request) (reference : Reference) : List String :=
  reference.candidates.filterMap (request.front.findOnSourcepath request.tree)

/-- A file that a batch may come to: one that is named, or one that the search for something may bring
in that such a file refers to. -/
inductive Reached (request : Request) : String → Prop
  | named {file : String} (hfile : file ∈ request.files) : Reached request file
  | found {file path : String} {reference : Reference} (hfile : Reached request file)
      (hreference : reference ∈ request.searchedFor file)
      (hpath : path ∈ request.pathsFor reference) : Reached request path

/-- If a file settles a reference, then it declares a type that the reference is looked for under and
that is found in this file, and the search for the reference brings in no other file. -/
def StraightAt (request : Request) (reference : Reference) (path : String) : Prop :=
  reference.SettledBy (request.namesOf path) →
    (∃ candidate ∈ reference.candidates,
      request.front.findOnSourcepath request.tree candidate = some path ∧
        candidate ∈ request.namesOf path) ∧
    ∀ other ∈ request.pathsFor reference, other ∈ request.files ∨ other = path

instance (request : Request) (reference : Reference) (path : String) :
    Decidable (request.StraightAt reference path) :=
  inferInstanceAs (Decidable (_ → _ ∧ _))

/-- A batch is straight: whatever a file of the sourcepath settles, the search for it brings in just
that file. -/
def Straight (request : Request) : Prop :=
  ∀ file path reference, request.Reached file → reference ∈ request.searchedFor file →
    request.Reached path → path ∉ request.files → request.StraightAt reference path

/-- What there is to check of a batch: files among which all are that it may come to. -/
theorem straight_within (around : List String) (hnamed : request.files ⊆ around)
    (hclosed : ∀ file ∈ around, ∀ reference ∈ request.searchedFor file,
      request.pathsFor reference ⊆ around)
    (hstraight : ∀ file ∈ around, ∀ reference ∈ request.searchedFor file,
      ∀ path ∈ around, path ∉ request.files → request.StraightAt reference path) :
    request.Straight := by
  have hreached (file : String) (h : request.Reached file) : file ∈ around := by
    induction h with
    | named hfile => exact hnamed hfile
    | found _ hreference hpath ih => exact hclosed _ ih _ hreference hpath
  intro file path reference hfile hreference hpath
  exact hstraight file (hreached file hfile) reference hreference path (hreached path hpath)

/-! ### The beginning -/

/-- The batch of the files in some order, when it is complete. -/
def compiled (request : Request) (names : List String) : Completion :=
  SourceFrontEnd.compiled request.tree request.reading names (request.front.listing names)

section Beginning

variable {names : List String}

theorem options_entered :
    (request.entered names).front.options = (request.front.listing names).options :=
  (enterAll_extends 0 _ _).options

theorem find_entered (name : String) :
    (request.entered names).front.findOnSourcepath request.tree name =
      request.front.findOnSourcepath request.tree name := by
  simp only [findOnSourcepath, options_entered]
  rfl

theorem packageOnSourcepath_entered (package : String) :
    (request.entered names).front.packageOnSourcepath request.tree package =
      request.front.packageOnSourcepath request.tree package := by
  simp only [packageOnSourcepath, options_entered]
  rfl

variable (hfresh : request.Fresh) (hsound : request.Sound) (hperm : names.Perm request.files)
  (hclean : (request.entered names).Clean)

include hfresh hperm hclean

/-- The files that are named are there from the start on. -/
theorem contains_entered : ∀ file ∈ request.files,
    (request.entered names).registry.contains file = true := by
  intro file hfile
  rw [Registry.contains_iff_mem, (tidy_entered hfresh hperm hclean).2]
  exact hperm.mem_iff.2 hfile

include hsound

/-- What is known from the start on does not depend on the order of the files. -/
theorem isKnown_entered {reference : Reference} :
    isKnown request.tree (request.entered names).front reference = true ↔
      request.KnownFirst reference := by
  obtain ⟨htidy, hfiles⟩ := tidy_entered hfresh hperm hclean
  have hnames : (names.flatMap request.namesOf).Perm (request.files.flatMap request.namesOf) :=
    hperm.flatMap fun _ _ => .refl _
  rw [isKnown_iff, htidy.names_eq hsound, hfiles, KnownFirst]
  simp only [packageOnSourcepath_entered]
  exact or_congr_left ⟨fun h => h.mono hnames.subset, fun h => h.mono hnames.symm.subset⟩

/-- What a tidy batch asks for, a file in it refers to. -/
theorem exists_of_asksFor {state : Completion} (htidy : request.Tidy state) {path : String}
    (hasks : state.AsksFor request.tree (request.entered names) path) :
    ∃ file ∈ state.registry.files, ∃ reference ∈ request.searchedFor file,
      path ∈ request.pathsFor reference := by
  obtain ⟨place, unit, outline, hunit, houtline, reference, hreference, hunknown, candidate,
    hcandidate, hpath⟩ := hasks
  have hmem : unit ∈ state.registry.units := Registry.mem_units_iff.2 ⟨place, hunit⟩
  have hrefers := (hsound.shows (htidy.shows unit hmem)).2
  rw [houtline, Option.elim_some] at hrefers
  rw [hrefers] at hreference
  rw [find_entered] at hpath
  refine ⟨unit.file, List.mem_map.2 ⟨unit, hmem, rfl⟩, reference,
    mem_searchedFor.2 ⟨hreference, fun hknown => ?_⟩,
    List.mem_filterMap.2 ⟨candidate, hcandidate, hpath⟩⟩
  rw [(isKnown_entered hfresh hsound hperm hclean).2 hknown] at hunknown
  cases hunknown

end Beginning

/-! ### A batch without errors -/

/-- A batch that was completed without errors: all its files can be reached in any order, and all was
tried for what they refer to. -/
structure Final (request : Request) (last : Completion) : Prop where
  tidy : request.Tidy last
  reached : ∀ file ∈ last.registry.files, request.Reached file
  named : ∀ file ∈ request.files, file ∈ last.registry.files
  finds : ∀ name, last.front.findOnSourcepath request.tree name =
    request.front.findOnSourcepath request.tree name
  packages : ∀ package, last.front.packageOnSourcepath request.tree package =
    request.front.packageOnSourcepath request.tree package
  tried : ∀ file ∈ last.registry.files, ∀ reference ∈ request.referencesOf file,
    last.Tried request.tree reference ∧
      (mustResolve request.front.options reference = true →
        isKnown request.tree last.front reference = true)

/-- The references of a file that is in a tidy batch are those of its unit. -/
theorem Tidy.exists_unit {state : Completion} (h : request.Tidy state) (hsound : request.Sound)
    {file : String} (hfile : file ∈ state.registry.files) :
    ∃ place unit outline, state.registry.get? place = some unit ∧ unit.isBroken = false ∧
      unit.outline = some outline ∧ outline.references = request.referencesOf file := by
  obtain ⟨unit, hunit, rfl⟩ := List.mem_map.1 hfile
  obtain ⟨place, hplace⟩ := Registry.mem_units_iff.1 hunit
  have hshows := h.shows unit hunit
  have hrefers := (hsound.shows hshows).2
  obtain ⟨text, diet, -, -, -, -, houtline⟩ := hshows
  rw [houtline, Option.elim_some] at hrefers
  exact ⟨place, unit, _, hplace, h.clean.units place unit hplace, houtline, hrefers⟩

section Completing

variable (hfresh : request.Fresh) (hsound : request.Sound) {names : List String}
  (hperm : names.Perm request.files)

include hfresh hsound hperm

/-- What is added to a batch without errors can be reached. -/
theorem reached_kept (hclean : (request.entered names).Clean) :
    KeptByLoading request.tree (request.entered names) fun state => state.Clean →
      request.Tidy state ∧ ∀ file ∈ state.registry.files, request.Reached file := by
  intro state path hstart h hasks hnew hnext
  have hextends : state.Extends (loadClosure request.tree path state).value :=
    loadClosure_extends path state
  obtain ⟨htidy, hreached⟩ := h (hextends.clean hnext)
  obtain ⟨htidy', hfiles⟩ :=
    (htidy.loadClosure (contains_entered hfresh hperm hclean) hstart hnew).1 hnext
  refine ⟨htidy', ?_⟩
  rw [hfiles]
  refine List.forall_mem_append.2 ⟨hreached, List.forall_mem_singleton.2 ?_⟩
  obtain ⟨file, hfile, reference, hreference, hpath⟩ :=
    exists_of_asksFor hfresh hsound hperm hclean htidy hasks
  exact .found (hreached file hfile) hreference hpath

/-- A batch that was completed without errors. -/
theorem final_compiled (hclean : (request.compiled names).Clean) :
    request.Final (request.compiled names) := by
  have hextends : (request.entered names).Extends (request.compiled names) :=
    completeFrom_extends _ 0 _
  have hentered := hextends.clean hclean
  obtain ⟨hstart, hfiles⟩ := tidy_entered hfresh hperm hentered
  have hnamed := contains_entered hfresh hperm hentered
  obtain ⟨htidy, hreached⟩ := completeFrom_kept (reached_kept hfresh hsound hperm hentered)
    (fun state index problems h hnext => by
      obtain ⟨hbefore, hreached⟩ := h ((extends_record index problems state).clean hnext)
      exact ⟨hbefore.record hnext, (Registry.files_record ..).symm ▸ hreached⟩)
    (.refl _) (fun _ => ⟨hstart, fun file hfile => .named (hperm.mem_iff.1 (hfiles ▸ hfile))⟩)
    (unitBound request.tree (request.entered names)) 0 hclean
  have hoptions : (request.compiled names).front.options =
      (request.front.listing names).options := hextends.options.trans options_entered
  refine ⟨htidy, hreached, fun file hfile => ?_, fun name => ?_, fun package => ?_,
    fun file hfile reference hreference => ?_⟩
  · exact Registry.contains_iff_mem.1 (hextends.contains (hnamed file hfile))
  · exact (hextends.findOnSourcepath name).trans (find_entered name)
  · simp only [packageOnSourcepath, hoptions]
    rfl
  · obtain ⟨place, unit, outline, hunit, hbroken, houtline, hrefers⟩ :=
      htidy.exists_unit hsound hfile
    have hcompleted : (request.compiled names).Completed request.tree place :=
      completed_completeFrom collecting_entered place
    rw [← hrefers] at hreference
    obtain ⟨htried, hknown⟩ := hcompleted unit outline hunit houtline reference hreference
    refine ⟨htried, fun hmust => hknown hbroken ?_⟩
    rw [hoptions]
    exact hmust

end Completing

/-! ### Another order -/

section Final

variable {last : Completion} (h : request.Final last) (hsound : request.Sound)
  (hstraight : request.Straight) {file : String} {reference : Reference}
  (hfile : file ∈ last.registry.files) (hreference : reference ∈ request.searchedFor file)

include h hsound hstraight hfile hreference

/-- What became known on the way is declared in a file that the search for it brings in, and in no
other. -/
theorem Final.settled (hknown : isKnown request.tree last.front reference = true) :
    ∃ path ∈ last.registry.files,
      (∃ candidate ∈ reference.candidates,
        request.front.findOnSourcepath request.tree candidate = some path ∧
          candidate ∈ request.namesOf path) ∧
      ∀ other ∈ request.pathsFor reference, other ∈ request.files ∨ other = path := by
  obtain ⟨-, hunknown⟩ := mem_searchedFor.1 hreference
  rw [isKnown_iff, h.tidy.names_eq hsound, Reference.settledBy_flatMap] at hknown
  simp only [h.packages] at hknown
  rcases hknown with ⟨path, hpath, hsettled⟩ | hpackage
  · have hother : path ∉ request.files := by
      intro hnamed
      exact hunknown (.inl (Reference.settledBy_flatMap.2 ⟨path, hnamed, hsettled⟩))
    exact ⟨path, hpath, hstraight file path reference (h.reached file hfile) hreference
      (h.reached path hpath) hother hsettled⟩
  · exact absurd (.inr hpackage) hunknown

/-- **A file that may declare what is not known from the start on is in the batch.** -/
theorem Final.found {path : String} (hpath : path ∈ request.pathsFor reference) :
    path ∈ last.registry.files := by
  rcases (h.tried file hfile reference (mem_searchedFor.1 hreference).1).1 with hknown | hthere
  · obtain ⟨own, hown, -, honly⟩ := h.settled hsound hstraight hfile hreference hknown
    rcases honly path hpath with hnamed | rfl
    · exact h.named path hnamed
    · exact hown
  · obtain ⟨candidate, hcandidate, hpath⟩ := List.mem_filterMap.1 hpath
    refine Registry.contains_iff_mem.1 (hthere candidate hcandidate path ?_)
    rw [h.finds, hpath]

end Final

/-- A tidy batch within another one, with every file once. -/
structure Below (request : Request) (last state : Completion) : Prop where
  tidy : request.Tidy state
  distinct : state.registry.files.Nodup
  within : state.registry.files ⊆ last.registry.files

/-- Noting no problems changes nothing that counts. -/
theorem Below.record_nil {last state : Completion} (h : request.Below last state) (index : Nat) :
    request.Below last
      { state with registry := state.registry.modify index (·.recordAll []) } := by
  have hfiles := state.registry.files_record index []
  refine ⟨h.tidy.record ⟨h.tidy.clean.errors, fun place unit hunit => ?_⟩, hfiles ▸ h.distinct,
    hfiles ▸ h.within⟩
  obtain ⟨old, hold, rfl | rfl⟩ := get?_record hunit
  · exact h.tidy.clean.units place _ hold
  · exact h.tidy.clean.units place old hold

/-- What the files of a batch without errors declare is declared once, also by some of them. -/
theorem Tidy.nodup_names {last : Completion} (h : request.Tidy last) (hsound : request.Sound)
    {files : List String} (hfiles : files.Nodup) (hsub : files ⊆ last.registry.files) :
    (files.flatMap request.namesOf).Nodup := by
  have hall : (last.registry.files.flatMap request.namesOf).Nodup := by
    rw [← h.names_eq hsound]
    exact h.distinct
  obtain ⟨middle, hperm, hsublist⟩ := hfiles.subperm hsub
  rw [← (hperm.flatMap fun _ _ => .refl _).nodup_iff]
  exact hall.sublist (hsublist.flatMap _)

/-- Every file of a batch without errors parses. -/
theorem Tidy.parses {last : Completion} (h : request.Tidy last) (hsound : request.Sound)
    {file : String} (hfile : file ∈ last.registry.files) : request.Parses file := by
  obtain ⟨unit, hunit, rfl⟩ := List.mem_map.1 hfile
  obtain ⟨text, place, htext, hplace, herrors, -⟩ := h.shows unit hunit
  exact (hsound.parse_eq htext hplace).1.1 herrors

section Other

variable (hfresh : request.Fresh) (hsound : request.Sound) (hstraight : request.Straight)
  {last : Completion} (hlast : request.Final last) {names : List String}
  (hperm : names.Perm request.files) (hclean : (request.entered names).Clean)

include hfresh hsound hstraight hlast hperm hclean

/-- **A file that is brought in on the way is one that the other order brought in, and it makes no
error.** -/
theorem below_kept :
    KeptByLoading request.tree (request.entered names) (request.Below last) := by
  intro state path hstart h hasks hnew
  have hnamed := contains_entered hfresh hperm hclean
  obtain ⟨file, hfile, reference, hreference, hpath⟩ :=
    exists_of_asksFor hfresh hsound hperm hclean h.tidy hasks
  have hthere : path ∈ last.registry.files :=
    hlast.found hsound hstraight (h.within hfile) hreference hpath
  have hdistinct := Registry.nodup_append h.distinct hnew
  have hwithin : state.registry.files ++ [path] ⊆ last.registry.files :=
    List.append_subset.2 ⟨h.within, List.cons_subset.2 ⟨hthere, List.nil_subset _⟩⟩
  obtain ⟨htidy, hnext⟩ := h.tidy.loadClosure hnamed hstart hnew
  obtain ⟨htidy', hfiles⟩ := htidy (hnext hsound (hlast.tidy.parses hsound hthere)
    (hlast.tidy.nodup_names hsound hdistinct hwithin))
  exact ⟨htidy', hfiles ▸ hdistinct, hfiles ▸ hwithin⟩

variable {state : Completion} (hstart : (request.entered names).Extends state)
  (h : request.Below last state)

include hstart h

/-- A search among names one of which is declared in the file where it is found succeeds. -/
theorem searchSourcepath_declared {candidates : List String}
    (hasks : ∀ candidate ∈ candidates, ∀ path,
      (request.entered names).front.findOnSourcepath request.tree candidate = some path →
        state.AsksFor request.tree (request.entered names) path)
    {candidate path : String} (hcandidate : candidate ∈ candidates)
    (hpath : request.front.findOnSourcepath request.tree candidate = some path)
    (hdeclared : candidate ∈ request.namesOf path) :
    (searchSourcepath request.tree candidates state).value.1 = true := by
  induction candidates generalizing state with
  | nil => cases hcandidate
  | cons first candidates ih =>
      obtain ⟨hfirst, hothers⟩ := List.forall_mem_cons.1 hasks
      unfold searchSourcepath
      rw [hstart.findOnSourcepath]
      cases hfind : (request.entered names).front.findOnSourcepath request.tree first with
      | none =>
          rcases List.mem_cons.1 hcandidate with rfl | hlater
          · rw [find_entered, hpath] at hfind
            cases hfind
          · exact ih hstart h hothers hlater
      | some found =>
          have hload : state.Extends (loadClosure request.tree found state).value :=
            loadClosure_extends found state
          have hnext : request.Below last (loadClosure request.tree found state).value := by
            cases hcontains : state.registry.contains found with
            | true =>
                rw [loadClosure_old hcontains]
                exact h
            | false =>
                exact below_kept hfresh hsound hstraight hlast hperm hclean state found hstart h
                  (hfirst found hfind) hcontains
          simp only [Logged.value_bind]
          split
          next => rfl
          next hmissing =>
            rcases List.mem_cons.1 hcandidate with rfl | hlater
            · -- The file declares the name, and it is there now.
              rw [find_entered, hpath] at hfind
              obtain rfl := Option.some.inj hfind
              have hthere : path ∈
                  (loadClosure request.tree path state).value.registry.files :=
                Registry.contains_iff_mem.1 (loadClosure_contains h.tidy.collecting path)
              refine absurd (TypeIndex.knowsType_iff.2 ?_) hmissing
              rw [hnext.tidy.names_eq hsound]
              exact List.mem_flatMap.2 ⟨path, hthere, hdeclared⟩
            · exact ih (hstart.trans hload) hnext
                (fun other hother path hpath => hload.asksFor (hothers other hother path hpath))
                hlater

section

variable {place : Nat} {unit : CompilationUnit} {outline : Outline}
  (hunit : state.registry.get? place = some unit) (houtline : unit.outline = some outline)

include hunit houtline

/-- What must be resolved is resolved in the other order too. -/
theorem resolve_below {reference : Reference} (hreference : reference ∈ outline.references)
    (hmust : mustResolve request.front.options reference = true) :
    (resolve request.tree reference state).value.1 = true := by
  have hmem : unit ∈ state.registry.units := Registry.mem_units_iff.2 ⟨place, hunit⟩
  have hrefers := (hsound.shows (h.tidy.shows unit hmem)).2
  rw [houtline, Option.elim_some] at hrefers
  have hfile : unit.file ∈ last.registry.files := h.within (List.mem_map.2 ⟨unit, hmem, rfl⟩)
  have hreference' : reference ∈ request.referencesOf unit.file := hrefers ▸ hreference
  unfold resolve
  split
  next => rfl
  next hmissing =>
    have hfirst : isKnown request.tree (request.entered names).front reference = false :=
      Bool.eq_false_iff.2 fun hknown => hmissing (hstart.isKnown hknown)
    have hunknown : ¬ request.KnownFirst reference := by
      rw [← isKnown_entered hfresh hsound hperm hclean, hfirst]
      exact Bool.false_ne_true
    have hknown := (hlast.tried _ hfile reference hreference').2 hmust
    obtain ⟨path, -, ⟨candidate, hcandidate, hpath, hdeclared⟩, -⟩ :=
      hlast.settled hsound hstraight hfile (mem_searchedFor.2 ⟨hreference', hunknown⟩) hknown
    exact searchSourcepath_declared hfresh hsound hstraight hlast hperm hclean hstart h
      (fun other hother found hfound => ⟨place, unit, outline, hunit, houtline, reference,
        hreference, hfirst, other, hother, hfound⟩) hcandidate hpath hdeclared

/-- So no problem is found. -/
theorem resolveAll_below {references : List Reference}
    (hreferences : references ⊆ outline.references) :
    (resolveAll request.tree references state).value.1 = [] := by
  induction references generalizing state unit with
  | nil => rfl
  | cons reference references ih =>
      obtain ⟨hreference, hothers⟩ := List.cons_subset.1 hreferences
      have hextends : state.Extends (resolve request.tree reference state).value.2 :=
        resolve_extends reference state
      have hnext := resolve_kept (below_kept hfresh hsound hstraight hlast hperm hclean) hstart h
        hunit houtline hreference
      obtain ⟨later, hlater, -, hsame, -⟩ := hextends.units place unit hunit
      have hoptions : mustResolve (resolve request.tree reference state).value.2.front.options
          reference = mustResolve request.front.options reference := by
        rw [(hstart.trans hextends).options, options_entered]
        rfl
      have hresolved : (!(resolve request.tree reference state).value.1 &&
          mustResolve (resolve request.tree reference state).value.2.front.options reference) =
            false := by
        rw [hoptions]
        cases hmust : mustResolve request.front.options reference with
        | false => exact Bool.and_false _
        | true =>
            rw [resolve_below hfresh hsound hstraight hlast hperm hclean hstart h hunit houtline
              hreference hmust]
            rfl
      rw [resolveAll_cons]
      simp only [hresolved, Bool.false_eq_true, if_false]
      exact ih (hstart.trans hextends) hnext hlater (hsame.trans houtline) hothers

end

/-- A slot is completed without errors. -/
theorem completeUnit_below (index : Nat) :
    request.Below last (completeUnit request.tree index state).value := by
  unfold completeUnit
  cases hfound : (state.registry.get? index).bind CompilationUnit.outline with
  | none => exact h
  | some outline =>
      obtain ⟨unit, hunit, houtline⟩ := Option.bind_eq_some_iff.1 hfound
      have hnext := resolveAll_kept (below_kept hfresh hsound hstraight hlast hperm hclean) hstart h
        hunit houtline (List.Subset.refl _)
      have hnone : (resolveAll request.tree outline.references state).value.1 = [] :=
        resolveAll_below hfresh hsound hstraight hlast hperm hclean hstart h hunit houtline
          (List.Subset.refl _)
      simp only [Logged.value_bind, Logged.value_pure, hnone]
      exact hnext.record_nil index

/-- All slots are. -/
theorem completeFrom_below (fuel index : Nat) :
    request.Below last (completeFrom request.tree fuel index state).value := by
  induction fuel generalizing index state with
  | zero => exact h
  | succ fuel ih =>
      by_cases hindex : index < state.registry.size
      · rw [completeFrom_succ fuel hindex]
        exact ih (hstart.trans (completeUnit_extends index state))
          (completeUnit_below hfresh hsound hstraight hlast hperm hclean hstart h index) (index + 1)
      · rw [completeFrom_done _ hindex]
        exact h

end Other

/-- **A straight batch has no errors in one order if it has none in another**, and it has the same
files then. -/
theorem compiled_perm (hfresh : request.Fresh) (hsound : request.Sound)
    (hstraight : request.Straight) (hdistinct : request.files.Nodup) {names others : List String}
    (hnames : names.Perm request.files) (hothers : others.Perm request.files)
    (hclean : (request.compiled names).Clean) :
    request.Below (request.compiled names) (request.compiled others) := by
  have hentered : (request.entered names).Clean :=
    Completion.Extends.clean (completeFrom_extends _ 0 _) hclean
  have hentered' : (request.entered others).Clean :=
    (entered_clean_iff hfresh hothers hsound).2 ((entered_clean_iff hfresh hnames hsound).1 hentered)
  have hfinal := final_compiled hfresh hsound hnames hclean
  -- The other order starts within the batch of the first one, and no step leaves it.
  obtain ⟨htidy, hfiles⟩ := tidy_entered hfresh hothers hentered'
  have hbelow : request.Below (request.compiled names) (request.entered others) := by
    refine ⟨htidy, ?_, ?_⟩
    · rw [hfiles]
      exact hothers.nodup_iff.2 hdistinct
    · rw [hfiles]
      exact fun file hfile => hfinal.named file (hothers.mem_iff.1 hfile)
  exact completeFrom_below hfresh hsound hstraight hfinal hothers hentered' (.refl _) hbelow _ 0

end Request

end JavaOutline
