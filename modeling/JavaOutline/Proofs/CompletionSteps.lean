/-
**How a batch is completed, step by step.**

Completing a batch does two things to it: a file is added that a unit asks for, and problems are noted
in the report of a unit.  So what both of them keep is true of the batch in the end.  Every file is
added at most once, and only if a unit asks for it that was there from the start, or the text of a
file that the batch comes to in this way.  There is an end of such files, and so the slots are all
visited.

Main definitions:

* `Completion.AsksFor` — a batch asks for a file, by a reference that was not known at the start;
* `KeptByLoading` — something that stays true when such a file is added;
* `Completion.Reaches` — a file that a batch may come to;
* `Completion.GrownFrom` — a batch with such files behind those that were there.

Main results:

* `resolveAll_kept`, `completeFrom_kept` — **what each step keeps is kept by all of them**;
* `completeFrom_grownFrom` — completing a batch adds files only that it may come to, each once;
* `completeFrom_enough` — more room for units changes nothing;
* `completed_completeFrom` — **all slots are completed in the end**.
-/

import Mathlib.Data.List.Nodup
import Mathlib.Data.List.Perm.Subperm
import JavaOutline.Proofs.BatchGrowth

set_option autoImplicit false

namespace JavaOutline

/-! ### The files of a registry -/

namespace Registry

theorem mem_units_iff {registry : Registry} {unit : CompilationUnit} :
    unit ∈ registry.units ↔ ∃ place, registry.get? place = some unit := by
  simp only [units, List.mem_filterMap, get?, Option.join_eq_some_iff]
  constructor
  · rintro ⟨slot, hslot, rfl⟩
    exact List.mem_iff_getElem?.1 hslot
  · rintro ⟨place, hplace⟩
    exact ⟨some unit, List.mem_of_getElem? hplace, rfl⟩

/-- The files of the units. -/
def files (registry : Registry) : List String := registry.units.map CompilationUnit.file

theorem contains_iff_mem {registry : Registry} {file : String} :
    registry.contains file = true ↔ file ∈ registry.files := by
  simp [contains, files]

theorem units_add {registry : Registry} (h : registry.collecting = true)
    (unit : CompilationUnit) :
    (registry.add unit).2.units = registry.units ++ [{ unit with ordinal := registry.size }] := by
  simp [add, h, units]

theorem files_add {registry : Registry} (h : registry.collecting = true)
    (unit : CompilationUnit) : (registry.add unit).2.files = registry.files ++ [unit.file] := by
  simp [files, units_add h]

/-- Noting problems changes nothing about the units but their reports. -/
theorem map_units_record {α : Type} (registry : Registry) (index : Nat) (problems : List Problem)
    {part : CompilationUnit → α} (hpart : ∀ unit, part (unit.recordAll problems) = part unit) :
    (registry.modify index (·.recordAll problems)).units.map part = registry.units.map part := by
  have hslots (slots : List (Option CompilationUnit)) :
      (slots.filterMap id).map part = (slots.map (Option.map part)).filterMap id := by
    rw [List.map_filterMap, List.filterMap_map]
    rfl
  rw [units, units, hslots, hslots]
  refine congrArg (List.filterMap id) (List.ext_getElem? fun place => ?_)
  simp only [modify, List.getElem?_map, List.getElem?_modify]
  cases registry.slots[place]? with
  | none => rfl
  | some slot => cases slot <;> by_cases h : index = place <;> simp [h, hpart]

theorem files_record (registry : Registry) (index : Nat) (problems : List Problem) :
    (registry.modify index (·.recordAll problems)).files = registry.files :=
  registry.map_units_record index problems fun _ => rfl

end Registry

namespace SourceFrontEnd

variable {tree : FileTree} {start state : Completion}

/-! ### What is kept -/

/-- A batch asks for a file: one of its units refers to something that was not known at the start and
that the file may declare. -/
def Completion.AsksFor (tree : FileTree) (state start : Completion) (path : String) : Prop :=
  ∃ place unit outline, state.registry.get? place = some unit ∧ unit.outline = some outline ∧
    ∃ reference ∈ outline.references, isKnown tree start.front reference = false ∧
      ∃ candidate ∈ reference.candidates,
        start.front.findOnSourcepath tree candidate = some path

/-- A batch goes on asking for a file. -/
theorem Completion.Extends.asksFor {later : Completion} (h : state.Extends later) {path : String}
    (hasks : state.AsksFor tree start path) : later.AsksFor tree start path := by
  obtain ⟨place, unit, outline, hunit, houtline, hreference⟩ := hasks
  obtain ⟨found, hfound, -, hsame, -⟩ := h.units place unit hunit
  exact ⟨place, found, outline, hfound, hsame.trans houtline, hreference⟩

/-- Something stays true of a later state of a batch when a file is added that the batch asks for. -/
def KeptByLoading (tree : FileTree) (start : Completion) (holds : Completion → Prop) : Prop :=
  ∀ state path, start.Extends state → holds state → state.AsksFor tree start path →
    state.registry.contains path = false → holds (loadClosure tree path state).value

section

variable {holds : Completion → Prop} (hkept : KeptByLoading tree start holds)

include hkept

theorem searchSourcepath_kept (hstart : start.Extends state) (h : holds state)
    {candidates : List String}
    (hasks : ∀ candidate ∈ candidates, ∀ path,
      start.front.findOnSourcepath tree candidate = some path → state.AsksFor tree start path) :
    holds (searchSourcepath tree candidates state).value.2 := by
  induction candidates generalizing state with
  | nil => exact h
  | cons candidate candidates ih =>
      obtain ⟨hfirst, hothers⟩ := List.forall_mem_cons.1 hasks
      unfold searchSourcepath
      cases hfind : state.front.findOnSourcepath tree candidate with
      | none => exact ih hstart h hothers
      | some path =>
          rw [hstart.findOnSourcepath] at hfind
          have hload : state.Extends (loadClosure tree path state).value :=
            loadClosure_extends path state
          have hnext : holds (loadClosure tree path state).value := by
            cases hcontains : state.registry.contains path with
            | true =>
                rw [loadClosure_old hcontains]
                exact h
            | false => exact hkept state path hstart h (hfirst path hfind) hcontains
          simp only [Logged.value_bind]
          split
          · exact hnext
          · exact ih (hstart.trans hload) hnext fun other hother found hfound =>
              hload.asksFor (hothers other hother found hfound)

theorem resolve_kept (hstart : start.Extends state) (h : holds state) {place : Nat}
    {unit : CompilationUnit} {outline : Outline} (hunit : state.registry.get? place = some unit)
    (houtline : unit.outline = some outline) {reference : Reference}
    (hreference : reference ∈ outline.references) :
    holds (resolve tree reference state).value.2 := by
  unfold resolve
  split
  next => exact h
  next hknown =>
    have hunknown : isKnown tree start.front reference = false :=
      Bool.eq_false_iff.2 fun hfirst => hknown (hstart.isKnown hfirst)
    exact searchSourcepath_kept hkept hstart h fun candidate hcandidate path hpath =>
      ⟨place, unit, outline, hunit, houtline, reference, hreference, hunknown, candidate,
        hcandidate, hpath⟩

theorem resolveAll_kept (hstart : start.Extends state) (h : holds state) {place : Nat}
    {unit : CompilationUnit} {outline : Outline} (hunit : state.registry.get? place = some unit)
    (houtline : unit.outline = some outline) {references : List Reference}
    (hreferences : references ⊆ outline.references) :
    holds (resolveAll tree references state).value.2 := by
  induction references generalizing state unit with
  | nil => exact h
  | cons reference references ih =>
      obtain ⟨hreference, hothers⟩ := List.cons_subset.1 hreferences
      have hextends : state.Extends (resolve tree reference state).value.2 :=
        resolve_extends reference state
      -- The unit keeps its outline while files are added, so it goes on asking for the others.
      obtain ⟨later, hlater, -, hsame, -⟩ := hextends.units place unit hunit
      rw [resolveAll_cons]
      exact ih (hstart.trans hextends) (resolve_kept hkept hstart h hunit houtline hreference)
        hlater (hsame.trans houtline) hothers

/-- A unit is completed by resolving what it refers to and noting the problems. -/
theorem completeUnit_kept (hrecord : ∀ state index problems, holds state →
      holds { state with registry := state.registry.modify index (·.recordAll problems) })
    (hstart : start.Extends state) (h : holds state) (index : Nat) :
    holds (completeUnit tree index state).value := by
  unfold completeUnit
  cases houtline : (state.registry.get? index).bind CompilationUnit.outline with
  | none => exact h
  | some outline =>
      obtain ⟨unit, hunit, hfound⟩ := Option.bind_eq_some_iff.1 houtline
      exact hrecord _ index _
        (resolveAll_kept hkept hstart h hunit hfound (List.Subset.refl _))

/-- **What adding files and noting problems keep is true in the end.** -/
theorem completeFrom_kept (hrecord : ∀ state index problems, holds state →
      holds { state with registry := state.registry.modify index (·.recordAll problems) })
    (hstart : start.Extends state) (h : holds state) (fuel index : Nat) :
    holds (completeFrom tree fuel index state).value := by
  induction fuel generalizing index state with
  | zero => exact h
  | succ fuel ih =>
      by_cases hindex : index < state.registry.size
      · rw [completeFrom_succ fuel hindex]
        exact ih (hstart.trans (completeUnit_extends index state))
          (completeUnit_kept hkept hrecord hstart h index) (index + 1)
      · rw [completeFrom_done _ hindex]
        exact h

end

/-! ### An end of the files -/

/-- What reading a source gives is the text of its file. -/
theorem read_of_readSource {path text : String} {limit : Nat}
    (h : tree.readSource path limit = .ok text) : tree.read path = .ok text := by
  unfold FileTree.readSource at h
  split at h
  · cases h
  · split at h
    · cases h
    · split at h
      next hread => rw [hread, Except.ok.inj h]
      next => cases h

/-- What a file gives when it is read is one of the texts of the tree. -/
theorem mem_texts_of_read {path text : String} (h : tree.read path = .ok text) :
    text ∈ tree.texts := by
  unfold FileTree.read at h
  cases hresolve : tree.resolve path with
  | error e => simp [hresolve] at h
  | ok entry =>
      cases entry with
      | directory => simp [hresolve] at h
      | file bytes =>
          have htext : String.fromUTF8? bytes = some text := by
            simp only [hresolve] at h
            split at h
            next found hfound => rw [hfound, Except.ok.inj h]
            next => cases h
          unfold FileTree.resolve at hresolve
          split at hresolve
          · cases hresolve
          next names _ =>
            have hentry : tree.entry? names = some (.file bytes) := by
              split at hresolve
              next found hfound => rw [hfound, Except.ok.inj hresolve]
              next => cases hresolve
            unfold FileTree.entry? at hentry
            split at hentry
            · cases hentry
            · obtain ⟨before, after, hentries, -⟩ := List.lookup_eq_some_iff.1 hentry
              refine List.mem_filterMap.2 ⟨(names, .file bytes), ?_, htext⟩
              rw [hentries]
              exact List.mem_append_right _ List.mem_cons_self

/-! ### The files that a batch comes to -/

/-- An outline asks for a file: the file may declare what the outline refers to. -/
def AskedBy (tree : FileTree) (front : SourceFrontEnd) (outline : Outline) (path : String) : Prop :=
  ∃ reference ∈ outline.references, ∃ candidate ∈ reference.candidates,
    front.findOnSourcepath tree candidate = some path

/-- A file that a batch may come to: one that the outline of a unit asks for, or one that the text of
such a file asks for. -/
inductive Completion.Reaches (tree : FileTree) (start : Completion) : String → Prop
  | atHand {unit : CompilationUnit} {outline : Outline} {path : String}
      (hunit : unit ∈ start.registry.units) (houtline : unit.outline = some outline)
      (hpath : AskedBy tree start.front outline path) : Reaches tree start path
  | behind {file text path : String} (hfile : Reaches tree start file)
      (htext : tree.readSource file start.front.sizeLimit = .ok text)
      (hpath : AskedBy tree start.front (Outline.parse text true).outline path) :
      Reaches tree start path

/-- There is an end of such files: an outline at hand or a text of the tree asks for each of them. -/
theorem Completion.Reaches.mem_around {path : String} (h : start.Reaches tree path) :
    path ∈ (outlinesAround tree start.registry).flatMap
      (filesAround start.front.options.sourcepath) := by
  have hasked {outline : Outline} (hpath : AskedBy tree start.front outline path) :
      path ∈ filesAround start.front.options.sourcepath outline := by
    obtain ⟨reference, hreference, candidate, hcandidate, hfind⟩ := hpath
    refine List.mem_flatMap.2 ⟨reference, hreference, ?_⟩
    exact List.mem_flatMap.2 ⟨candidate, hcandidate, List.mem_of_find?_eq_some hfind⟩
  cases h with
  | atHand hunit houtline hpath =>
      refine List.mem_flatMap.2 ⟨_, List.mem_append_left _ ?_, hasked hpath⟩
      exact List.mem_filterMap.2 ⟨_, hunit, houtline⟩
  | behind _ htext hpath =>
      refine List.mem_flatMap.2 ⟨_, List.mem_append_right _ ?_, hasked hpath⟩
      exact List.mem_map.2 ⟨_, mem_texts_of_read (read_of_readSource htext), rfl⟩

/-- The outline of a file that is added is that of its text. -/
theorem outline_loadClosure {path : String} {report : UnitReport} {front : SourceFrontEnd}
    {outline : Outline}
    (h : (enteredUnit tree { file := path, origin := .closure } report true front).1.outline =
      some outline) :
    ∃ text, tree.readSource path front.sizeLimit = .ok text ∧
      (Outline.parse text true).outline = outline := by
  unfold enteredUnit parse at h
  cases hcontents : ({ file := path, origin := .closure } : SourceFile).contents tree
    front.sizeLimit with
  | error e => simp [hcontents, bind, CompilationUnit.make] at h
  | ok text =>
      simp only [hcontents, Logged.value_pure, bind, CompilationUnit.make] at h
      exact ⟨text, hcontents, Option.some.inj h⟩

theorem size_add {registry : Registry} (hcollecting : registry.collecting = true)
    (unit : CompilationUnit) : (registry.add unit).2.size = registry.size + 1 := by
  simp [Registry.add, hcollecting, Registry.size]

/-- A unit stands in a slot of a registry to which another one was added, or it is that one. -/
theorem get?_add {registry : Registry} (hcollecting : registry.collecting = true)
    {unit found : CompilationUnit} {place : Nat}
    (h : (registry.add unit).2.get? place = some found) :
    registry.get? place = some found ∨ found = { unit with ordinal := registry.size } := by
  rcases Nat.lt_trichotomy place registry.size with hlt | rfl | hgt
  · exact .inl ((Registry.get?_add_old hlt unit).symm.trans h)
  · exact .inr (Option.some.inj (h.symm.trans (Registry.get?_add_new hcollecting unit)))
  · have hnone : (registry.add unit).2.slots[place]? = none :=
      List.getElem?_eq_none_iff.2 (Nat.le_trans (Nat.le_of_eq (size_add hcollecting unit)) hgt)
    simp [Registry.get?, hnone] at h

/-- A unit of a registry in which problems were noted was there before, without these problems or with
them. -/
theorem get?_record {registry : Registry} {index place : Nat} {problems : List Problem}
    {unit : CompilationUnit}
    (h : (registry.modify index (·.recordAll problems)).get? place = some unit) :
    ∃ old, registry.get? place = some old ∧ (unit = old ∨ unit = old.recordAll problems) := by
  simp only [Registry.get?, Registry.modify, List.getElem?_modify] at h ⊢
  cases hslot : registry.slots[place]? with
  | none => simp [hslot] at h
  | some slot =>
      cases slot with
      | none => by_cases hplace : index = place <;> simp [hslot, hplace] at h
      | some old =>
          refine ⟨old, rfl, ?_⟩
          by_cases hplace : index = place
          · right
            simpa [hslot, hplace] using h.symm
          · left
            simpa [hslot, hplace] using h.symm

/-- A file that was not there stands behind the others. -/
theorem files_loadClosure {path : String} (hcollecting : state.registry.collecting = true)
    (hnew : state.registry.contains path = false) :
    (loadClosure tree path state).value.registry.files = state.registry.files ++ [path] := by
  rw [loadClosure_new hnew]
  refine (Registry.files_add hcollecting _).trans (congrArg (state.registry.files ++ [·]) ?_)
  exact congrArg Prod.fst (enteredUnit_identity tree { file := path, origin := .closure } _ true
    state.front)

/-- A batch that grew out of another one.  Its units ask for files only that the batch at the start
may come to, and files of that kind were added behind the others, each of them once. -/
structure Completion.GrownFrom (tree : FileTree) (state start : Completion) : Prop where
  asked : ∀ unit ∈ state.registry.units, ∀ outline, unit.outline = some outline →
    ∀ path, AskedBy tree start.front outline path → start.Reaches tree path
  added : ∃ added : List String, added.Nodup ∧
    (∀ path ∈ added, start.Reaches tree path ∧ start.registry.contains path = false) ∧
    state.registry.files = start.registry.files ++ added ∧
    state.registry.size = start.registry.size + added.length

/-- At first nothing is added. -/
theorem Completion.GrownFrom.refl (tree : FileTree) (start : Completion) :
    start.GrownFrom tree start where
  asked _ hunit _ houtline _ hpath := .atHand hunit houtline hpath
  added := ⟨[], List.nodup_nil, nofun, (List.append_nil _).symm, rfl⟩

/-- What such a batch asks for is what it may come to. -/
theorem Completion.GrownFrom.reaches (h : state.GrownFrom tree start) {path : String}
    (hasks : state.AsksFor tree start path) : start.Reaches tree path := by
  obtain ⟨place, unit, outline, hunit, houtline, reference, hreference, -, candidate, hcandidate,
    hpath⟩ := hasks
  exact h.asked unit (Registry.mem_units_iff.2 ⟨place, hunit⟩) outline houtline path
    ⟨reference, hreference, candidate, hcandidate, hpath⟩

/-- There are no more units than were reckoned with. -/
theorem Completion.GrownFrom.size_le (h : state.GrownFrom tree start) :
    state.registry.size ≤ unitBound tree start := by
  obtain ⟨added, hdistinct, hfiles, -, hsize⟩ := h.added
  rw [hsize, unitBound]
  exact Nat.add_le_add_left
    (hdistinct.subperm fun path hpath => (hfiles path hpath).1.mem_around).length_le _

/-- A file that was not there is added to a batch that collects units. -/
theorem Completion.GrownFrom.load (h : state.GrownFrom tree start) (hstart : start.Extends state)
    (hcollecting : state.registry.collecting = true) {path : String}
    (hpath : start.Reaches tree path) (hnew : state.registry.contains path = false) :
    (loadClosure tree path state).value.GrownFrom tree start where
  asked unit hunit outline houtline other hasked := by
    rw [loadClosure_new hnew, Registry.units_add hcollecting] at hunit
    rcases List.mem_append.1 hunit with hold | hown
    · exact h.asked unit hold outline houtline other hasked
    · rw [List.mem_singleton.1 hown] at houtline
      obtain ⟨text, htext, rfl⟩ := outline_loadClosure houtline
      rw [hstart.sizeLimit] at htext
      exact .behind hpath htext hasked
  added := by
    obtain ⟨added, hdistinct, hfiles, hall, hsize⟩ := h.added
    have hunlisted : path ∉ start.registry.files ++ added := by
      rw [← hall, ← Registry.contains_iff_mem, hnew]
      exact Bool.false_ne_true
    have hfirst : start.registry.contains path = false :=
      Bool.eq_false_iff.2 fun hthere =>
        hunlisted (List.mem_append_left _ (Registry.contains_iff_mem.1 hthere))
    refine ⟨added ++ [path], ?_, ?_, ?_, ?_⟩
    · refine List.nodup_append.2 ⟨hdistinct, List.nodup_singleton path, ?_⟩
      rintro other hother last hlast rfl
      rw [List.mem_singleton.1 hlast] at hother
      exact hunlisted (List.mem_append_right _ hother)
    · intro other hother
      rcases List.mem_append.1 hother with hold | hown
      · exact hfiles other hold
      · rw [List.mem_singleton.1 hown]
        exact ⟨hpath, hfirst⟩
    · rw [files_loadClosure hcollecting hnew, hall, List.append_assoc]
    · rw [loadClosure_new hnew, size_add hcollecting, hsize, List.length_append,
        List.length_singleton, Nat.add_assoc]

/-- A batch that collects nothing stays as it is. -/
theorem Completion.GrownFrom.load_idle (h : state.GrownFrom tree start)
    (hcollecting : state.registry.collecting = false) {path : String}
    (hnew : state.registry.contains path = false) :
    (loadClosure tree path state).value.GrownFrom tree start := by
  have hregistry : (loadClosure tree path state).value.registry = state.registry := by
    rw [loadClosure_new hnew]
    exact congrArg Prod.snd (if_neg (by simp [hcollecting]))
  exact ⟨hregistry ▸ h.asked, hregistry ▸ h.added⟩

/-- A batch goes on growing when a file is added that it asks for. -/
theorem grownFrom_kept : KeptByLoading tree start (Completion.GrownFrom tree · start) := by
  intro state path hstart h hasks hnew
  cases hcollecting : state.registry.collecting with
  | true => exact h.load hstart hcollecting (h.reaches hasks) hnew
  | false => exact h.load_idle hcollecting hnew

/-- Noting problems adds no files. -/
theorem Completion.GrownFrom.record (h : state.GrownFrom tree start) (index : Nat)
    (problems : List Problem) :
    Completion.GrownFrom tree
      { state with registry := state.registry.modify index (·.recordAll problems) } start where
  asked unit hunit outline houtline path hpath := by
    obtain ⟨place, hplace⟩ := Registry.mem_units_iff.1 hunit
    obtain ⟨old, hold, rfl | rfl⟩ := get?_record hplace
    · exact h.asked _ (Registry.mem_units_iff.2 ⟨place, hold⟩) outline houtline path hpath
    · exact h.asked old (Registry.mem_units_iff.2 ⟨place, hold⟩) outline houtline path hpath
  added := by
    obtain ⟨added, hdistinct, hfiles, hall, hsize⟩ := h.added
    refine ⟨added, hdistinct, hfiles, (state.registry.files_record index problems).trans hall, ?_⟩
    rw [← hsize]
    simp [Registry.size, Registry.modify]

variable (tree start) in
/-- **Completing a batch adds files only that it may come to**, each of them once. -/
theorem completeFrom_grownFrom (fuel index : Nat) :
    (completeFrom tree fuel index start).value.GrownFrom tree start :=
  completeFrom_kept grownFrom_kept (fun _ index problems h => h.record index problems)
    (.refl start) (.refl tree start) fuel index

/-- More room for units changes nothing. -/
theorem completeFrom_enough {fuel : Nat} (h : unitBound tree start ≤ fuel) :
    (completeFrom tree fuel 0 start).value =
      (completeFrom tree (unitBound tree start) 0 start).value := by
  obtain ⟨more, rfl⟩ := Nat.exists_eq_add_of_le h
  rw [completeFrom_add]
  refine completeFrom_done more ?_
  have hsize := (completeFrom_grownFrom tree start (unitBound tree start) 0).size_le
  omega

/-- The batch of some files has no empty slots. -/
theorem Completion.Sound.get? {files : List String} (h : state.Sound files) {place : Nat}
    (hplace : place < state.registry.size) : ∃ unit, state.registry.get? place = some unit := by
  obtain ⟨added, hadded⟩ := h
  have hslot : state.registry.slots[place]? = some (state.registry.slots.get ⟨place, hplace⟩) :=
    List.getElem?_eq_getElem hplace
  have hidentity := congrArg (·[place]?) hadded.identities
  simp only [List.getElem?_map, hslot, Option.map_some, List.getElem?_append] at hidentity
  cases hunit : state.registry.slots.get ⟨place, hplace⟩ with
  | some unit => exact ⟨unit, by rw [Registry.get?, hslot, hunit]; rfl⟩
  | none =>
      rw [hunit, Option.map_none] at hidentity
      split at hidentity
      · obtain ⟨file, -, hfile⟩ := Option.map_eq_some_iff.1 hidentity.symm
        cases hfile
      · obtain ⟨file, -, hfile⟩ := Option.map_eq_some_iff.1 hidentity.symm
        cases hfile

/-- A slot that is empty stays empty. -/
theorem completeFrom_empty {place : Nat} (hplace : place < start.registry.size)
    (hempty : start.registry.get? place = none) (fuel index : Nat) :
    (completeFrom tree fuel index start).value.registry.get? place = none := by
  let holds (state : Completion) : Prop :=
    place < state.registry.size ∧ state.registry.get? place = none
  have hkept : KeptByLoading tree start holds := by
    intro state path _ h _ hnew
    rw [loadClosure_new hnew]
    refine ⟨Nat.lt_of_lt_of_le h.1 ?_, (Registry.get?_add_old h.1 _).trans h.2⟩
    unfold Registry.add
    split
    · simp [Registry.size]
    · exact Nat.le_refl _
  have hrecord (state : Completion) (index : Nat) (problems : List Problem) (h : holds state) :
      holds { state with registry := state.registry.modify index (·.recordAll problems) } := by
    refine ⟨by simpa [Registry.size, Registry.modify] using h.1, ?_⟩
    refine Option.eq_none_iff_forall_ne_some.2 fun unit hunit => ?_
    obtain ⟨old, hold, -⟩ := get?_record hunit
    rw [h.2] at hold
    cases hold
  exact (completeFrom_kept hkept hrecord (.refl start) ⟨hplace, hempty⟩ fuel index).2

/-- **All slots are completed in the end**, those included that were added on the way. -/
theorem completed_completeFrom (hcollecting : start.registry.collecting = true) (place : Nat) :
    (completeFrom tree (unitBound tree start) 0 start).value.Completed tree place := by
  have hsize := (completeFrom_grownFrom tree start (unitBound tree start) 0).size_le
  by_cases hplace : place < (completeFrom tree (unitBound tree start) 0 start).value.registry.size
  · -- The batch when the visit comes to the slot.
    let middle := (completeFrom tree place 0 start).value
    obtain ⟨rest, hrest⟩ := Nat.exists_eq_add_of_le (Nat.le_of_lt (Nat.lt_of_lt_of_le hplace hsize))
    have hmiddle : (completeFrom tree (unitBound tree start) 0 start).value =
        (completeFrom tree rest place middle).value := by
      rw [hrest, completeFrom_add, Nat.zero_add]
    have hthere : place < middle.registry.size := by
      refine Decidable.byContradiction fun hbehind => ?_
      rw [hmiddle, completeFrom_done rest hbehind] at hplace
      exact hbehind hplace
    rw [hmiddle]
    cases hslot : middle.registry.get? place with
    | none =>
        intro unit outline hunit
        rw [completeFrom_empty hthere hslot rest place] at hunit
        cases hunit
    | some unit =>
        exact completeFrom_completed
          ((completeFrom_extends place 0 start).collecting.trans hcollecting) hslot (Nat.le_refl _)
          (by omega)
  · intro unit outline hunit
    have hnone := List.getElem?_eq_none_iff.2 (Nat.le_of_not_lt hplace)
    simp [Registry.get?, hnone] at hunit

end SourceFrontEnd

end JavaOutline
