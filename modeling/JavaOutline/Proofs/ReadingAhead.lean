/-
**Reading ahead and what it shows.**

The sources of a large batch may be read before they are parsed.  A source that was read keeps what
reading gave, and reading ahead goes up to the standard size, whatever size the front end is set to.
So the batch does not show that its sources were read ahead, as long as the two sizes say the same
of each of them.

Main definitions:

* `SizesAgree` — two limits for the size of a source say the same of a file;
* `ReadTheSame` — the sources of two batches of the same files read the same.

Main results:

* `readSource_eq_iff` — when reading a source with two limits gives the same text, or none;
* `compiled_congr`, `readTheSame_of_registry` — **two batches of the same files are the same exactly
  if their sources read the same**;
* `compile_readAhead_iff` — **when reading ahead does not show in the batch**;
* `not_hidden_below_limit` — six short sources with which it does.
-/

import JavaOutline.Proofs.RepeatedArgument

set_option autoImplicit false

namespace JavaOutline

open SourceFrontEnd

/-! ### Reading with two limits -/

/-- Two limits say the same of the file at a path: its text, if there is one, is within both or
within neither. -/
def SizesAgree (tree : FileTree) (limit other : Nat) (path : String) : Prop :=
  ∀ text, tree.read path = .ok text → (text.utf8ByteSize ≤ limit ↔ text.utf8ByteSize ≤ other)

section

variable {tree : FileTree} {path text : String}

/-- A file with a text has the size of the text. -/
theorem size_of_read (h : tree.read path = .ok text) : tree.size path = .ok text.utf8ByteSize := by
  unfold FileTree.read at h
  unfold FileTree.size
  cases hresolve : tree.resolve path with
  | error e => simp [hresolve] at h
  | ok entry =>
      cases entry with
      | directory => simp [hresolve] at h
      | file bytes =>
          simp only [hresolve] at h
          split at h
          next found hfound =>
            obtain rfl := Except.ok.inj h
            unfold String.fromUTF8? at hfound
            split at hfound
            · obtain rfl := Option.some.inj hfound
              rfl
            · cases hfound
          next => cases h

/-- What reading a source gives: its text, if that is within the limit. -/
theorem readSource_toOption (tree : FileTree) (path : String) (limit : Nat) :
    (tree.readSource path limit).toOption =
      (tree.read path).toOption.filter fun text => decide (text.utf8ByteSize ≤ limit) := by
  cases hread : tree.read path with
  | ok text =>
      rw [FileTree.readSource, size_of_read hread]
      by_cases hsize : limit < text.utf8ByteSize
      · simp [hsize, Except.toOption, Option.filter]
      · simp [hsize, hread, Except.toOption, Option.filter, Nat.le_of_not_lt hsize]
  | error e =>
      cases hsource : tree.readSource path limit with
      | error => rfl
      | ok text => simp [read_of_readSource hsource] at hread

/-- Reading a source with two limits gives the same exactly if the limits say the same of it. -/
theorem readSource_eq_iff (tree : FileTree) (path : String) (limit other : Nat) :
    (tree.readSource path limit).toOption = (tree.readSource path other).toOption ↔
      SizesAgree tree limit other path := by
  rw [readSource_toOption, readSource_toOption, SizesAgree]
  cases tree.read path with
  | error e => simp [Except.toOption]
  | ok text =>
      by_cases hlimit : text.utf8ByteSize ≤ limit <;> by_cases hother : text.utf8ByteSize ≤ other <;>
        simp [Except.toOption, Option.filter, hlimit, hother]

/-- Reading a source with two limits gives the same if it gives a text with both or with neither. -/
theorem readSource_eq_of_isSome {limit other : Nat}
    (h : (tree.readSource path limit).toOption.isSome =
      (tree.readSource path other).toOption.isSome) :
    (tree.readSource path limit).toOption = (tree.readSource path other).toOption := by
  cases hlimit : tree.readSource path limit with
  | error e =>
      cases hother : tree.readSource path other with
      | error e' => rfl
      | ok found => simp [hlimit, hother, Except.toOption] at h
  | ok text =>
      cases hother : tree.readSource path other with
      | error e => simp [hlimit, hother, Except.toOption] at h
      | ok found =>
          have hsame := (read_of_readSource hlimit).symm.trans (read_of_readSource hother)
          rw [Except.ok.inj hsame]

end

/-! ### The units of a batch -/

namespace SourceFrontEnd

variable {tree : FileTree}

/-- Sources of one file are entered alike if they read the same; why a source cannot be read is not
to be seen. -/
theorem enteredUnit_congr {source other : SourceFile} {front : SourceFrontEnd}
    (hfile : other.file = source.file) (horigin : other.origin = source.origin)
    (hcontents : (other.contents tree front.sizeLimit).toOption =
      (source.contents tree front.sizeLimit).toOption) (report : UnitReport) (diet : Bool) :
    enteredUnit tree other report diet front = enteredUnit tree source report diet front := by
  unfold enteredUnit parse
  cases hother : other.contents tree front.sizeLimit <;>
    cases hsource : source.contents tree front.sizeLimit <;>
    simp only [hother, hsource, Except.toOption, reduceCtorEq, Option.some.injEq] at hcontents
  · simp only [hfile, horigin, Logged.value_bind, Logged.value_pure]
  · simp only [hfile, horigin, hcontents, Logged.value_pure]

/-- Sources that read the same make the same batch. -/
theorem enterAll_congr {load other : String → SourceFile} {files : List String} {limit : Nat}
    (hload : ∀ file ∈ files, (load file).file = file ∧ (load file).origin = .requested)
    (hother : ∀ file ∈ files, (other file).file = file ∧ (other file).origin = .requested)
    (hcontents : ∀ file ∈ files, ((other file).contents tree limit).toOption =
      ((load file).contents tree limit).toOption) (threshold total index : Nat)
    {state : Completion} (hlimit : state.front.sizeLimit = limit) :
    enterAll tree threshold total index (files.map other) state =
      enterAll tree threshold total index (files.map load) state := by
  induction files generalizing index state with
  | nil => rfl
  | cons file files ih =>
      obtain ⟨hfirst, hloads⟩ := List.forall_mem_cons.1 hload
      obtain ⟨hfirst', hothers⟩ := List.forall_mem_cons.1 hother
      obtain ⟨hread, hreads⟩ := List.forall_mem_cons.1 hcontents
      have hsource : enterSource tree threshold total index (other file) state =
          enterSource tree threshold total index (load file) state := by
        unfold enterSource enteredSource
        rw [enteredUnit_congr (hfirst'.1.trans hfirst.1.symm) (hfirst'.2.trans hfirst.2.symm)
          (hlimit ▸ hread), hfirst.1, hfirst'.1]
      rw [List.map_cons, List.map_cons, enterAll, enterAll, hsource]
      exact ih hloads hothers hreads (index + 1)
        ((enterSource_extends index (load file) state).sizeLimit.trans hlimit)

/-- The unit of a file has an outline exactly if the file was read. -/
theorem compiled_get?_outline (tree : FileTree) (reading : ReadingPreferences)
    (front : SourceFrontEnd) (ahead behind : List String) (f : String) :
    ∃ unit, (compiled tree reading (ahead ++ f :: behind) front).registry.get? ahead.length =
        some unit ∧
      unit.outline.isSome =
        ((sourceAmong tree reading (ahead ++ f :: behind).length f).contents tree
          front.sizeLimit).toOption.isSome := by
  obtain ⟨before, hsize, hcollecting, hlimit, hlater⟩ := entered_cut tree reading ahead behind front f
  obtain ⟨later, hget, -, houtline, -⟩ :=
    (hlater.trans compiled_extends).units _ _ (Registry.get?_add_new hcollecting _)
  rw [hsize] at hget
  refine ⟨later, hget, ?_⟩
  rw [houtline, ← hlimit]
  show (Batch.notePackage _).outline.isSome = _
  rw [(notePackage_isBroken _).2, enteredSource, enteredUnit, parse]
  cases (sourceAmong tree reading (ahead ++ f :: behind).length f).contents tree
    before.front.sizeLimit <;> rfl

section

variable {reading other : ReadingPreferences} {files : List String} {front : SourceFrontEnd}

/-- The sources of two batches of the same files read the same. -/
def ReadTheSame (tree : FileTree) (reading other : ReadingPreferences) (files : List String)
    (limit : Nat) : Prop :=
  ∀ f ∈ files,
    ((sourceAmong tree reading files.length f).contents tree limit).toOption =
      ((sourceAmong tree other files.length f).contents tree limit).toOption

/-- Sources that read the same make the same batch. -/
theorem compiled_congr (hthreshold : reading.parseThreshold = other.parseThreshold)
    (h : ReadTheSame tree reading other files front.sizeLimit) :
    compiled tree reading files front = compiled tree other files front := by
  have hentered : entered tree reading files front = entered tree other files front := by
    unfold entered
    rw [hthreshold]
    exact enterAll_congr (fun file _ => sourceAmong_identity tree other files.length file)
      (fun file _ => sourceAmong_identity tree reading files.length file) h _ _ 0 rfl
  rw [compiled, compiled, hentered]

/-- If the units are the same, then the sources read the same. -/
theorem readTheSame_of_registry
    (h : (compiled tree reading files front).registry = (compiled tree other files front).registry) :
    ReadTheSame tree reading other files front.sizeLimit := by
  intro f hfile
  obtain ⟨ahead, behind, rfl⟩ := List.append_of_mem hfile
  obtain ⟨unit, hunit, hread⟩ := compiled_get?_outline tree reading front ahead behind f
  obtain ⟨found, hfound, hread'⟩ := compiled_get?_outline tree other front ahead behind f
  rw [h, hfound] at hunit
  obtain rfl := Option.some.inj hunit
  rw [contents_sourceAmong] at hread hread' ⊢
  rw [contents_sourceAmong]
  exact readSource_eq_of_isSome (hread.symm.trans hread')

end

end SourceFrontEnd

/-! ### Reading ahead -/

/-- Sources that may be read ahead read as others exactly if there are few of them, or the limits say
the same of each. -/
theorem readTheSame_single_iff (tree : FileTree) (reading : ReadingPreferences)
    (files : List String) (limit : Nat) :
    ReadTheSame tree { reading with singleThread := false } { reading with singleThread := true }
        files limit ↔
      files.length < readAheadThreshold ∨
        ∀ file ∈ files, SizesAgree tree standardSizeLimit limit file := by
  simp only [ReadTheSame, contents_sourceAmong, Bool.not_false, Bool.true_and, Bool.not_true,
    Bool.false_and, Bool.false_eq_true, if_false, decide_eq_true_eq]
  by_cases hmany : readAheadThreshold ≤ files.length
  · simp only [if_pos hmany, readSource_eq_iff, Nat.not_lt.2 hmany, false_or]
  · simp only [if_neg hmany, Nat.lt_of_not_le hmany, true_or, implies_true]

/-- **When reading ahead does not show in the batch**: the arguments are rejected, or they name too
few sources for that, or the limit of the front end and the standard one say the same of each
source. -/
theorem compile_readAhead_iff (tree : FileTree) (reading : ReadingPreferences)
    (arguments : List String) (front : SourceFrontEnd) :
    (Batch.compile (sourceFrontEnd tree) tree { reading with singleThread := false } arguments
        front).value.1 =
      (Batch.compile (sourceFrontEnd tree) tree { reading with singleThread := true } arguments
        front).value.1 ↔
    ∀ options, Options.parse arguments = .ok options →
      options.files.length < readAheadThreshold ∨
        ∀ file ∈ options.files, SizesAgree tree standardSizeLimit front.sizeLimit file := by
  cases hparse : Options.parse arguments with
  | error e =>
      have hrejected (reading : ReadingPreferences) :
          (Batch.compile (sourceFrontEnd tree) tree reading arguments front).value = (.error e, front) :=
        compile_rejected (by simp [sourceFrontEnd, configure, hparse])
      simp [hrejected]
  | ok options =>
      rw [compile_compiledFor hparse, compile_compiledFor hparse, Except.ok.injEq]
      constructor
      · rintro hbatch _ ⟨⟩
        have hregistry : (compiled tree { reading with singleThread := false } options.files
            (front.configured options)).registry =
              (compiled tree { reading with singleThread := true } options.files
                (front.configured options)).registry :=
          congrArg Batch.registry hbatch
        have hsame := readTheSame_of_registry hregistry
        exact (readTheSame_single_iff tree reading options.files front.sizeLimit).1 hsame
      · intro hread
        have hsame : ReadTheSame tree { reading with singleThread := false }
            { reading with singleThread := true } options.files front.sizeLimit :=
          (readTheSame_single_iff ..).2 (hread options rfl)
        have hcompiled : compiledFor tree { reading with singleThread := false } front options =
            compiledFor tree { reading with singleThread := true } front options :=
          compiled_congr rfl hsame
        rw [hcompiled]

/-- Six sources of six bytes each, with a front end that reads up to five: they are all read if they
are read ahead, and none of them otherwise. -/
theorem not_hidden_below_limit :
    let names := ["A.java", "B.java", "C.java", "D.java", "E.java", "F.java"]
    let tree : FileTree := { entries := names.map fun name => ([name], .file ";;;;;;".toUTF8) }
    let front : SourceFrontEnd := { sizeLimit := 5 }
    (Batch.compile (sourceFrontEnd tree) tree { singleThread := false } names front).value.1 ≠
      (Batch.compile (sourceFrontEnd tree) tree { singleThread := true } names front).value.1 := by
  intro names tree front h
  have hahead : (Batch.compile (sourceFrontEnd tree) tree { singleThread := false } names
      front).value.1.toOption.map Batch.globalErrors = some 0 := by decide +kernel
  have hsingle : (Batch.compile (sourceFrontEnd tree) tree { singleThread := true } names
      front).value.1.toOption.map Batch.globalErrors = some 6 := by decide +kernel
  rw [h, hsingle] at hahead
  cases hahead

end JavaOutline
