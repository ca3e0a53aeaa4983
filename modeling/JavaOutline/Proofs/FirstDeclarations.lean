/-
**The types of a batch under their names.**

The types of a unit are entered with the names of the types around them, in the order in which the unit
lists its types.  A name that is taken is not entered again; the unit is told instead which file has it.
So the index is known from the list of all declarations, units in order and outer types first: under
each name it has the first declaration with this name, and a declaration is a problem of its unit
exactly if one in front of it has the same name.

Main definitions:

* `PlacedType`, `Outline.placedTypes` — the types of a unit with the types around them;
* `Outline.Nests` — which types stand around a type;
* `CompilationUnit.declarations` — the types of a unit as they can be entered;
* `SourceFrontEnd.bindAll` — entering the types of units in order;
* `TypeIndex.HoldsFirsts` — an index has the first of several declarations under each name;
* `SourceFrontEnd.repeatAt` — what is reported for a declaration.

Main results:

* `Outline.decl_placedTypes`, `Outline.mem_placedTypes` — every type is listed with the types around it;
* `Outline.declaredTypes_eq` — the names under which types are entered;
* `TypeIndex.HoldsFirsts.define` — what entering one type keeps;
* `SourceFrontEnd.bindAll_firstDeclarations` — **the index and the problems after any units**.
-/

import JavaOutline.Proofs.TidyBatch

set_option autoImplicit false

namespace JavaOutline

/-! ### Types and the types around them -/

/-- A type with the types around it, the outermost first. -/
structure PlacedType where
  around : List TypeDecl
  decl : TypeDecl

/-- The name of a type behind the parts of a name and the names of the types around it. -/
def PlacedType.nameBehind (front : List String) (placed : PlacedType) : String :=
  ".".intercalate (front ++ placed.around.map TypeDecl.name ++ [placed.decl.name])

/-- The package as the front of a name; the package without a name adds nothing. -/
def packageFront (package : Option String) : List String := package.toList.filter (· ≠ "")

/-- The name of a type: the package, the types around it and its own name, with dots between them. -/
def PlacedType.qualifiedName (package : Option String) (placed : PlacedType) : String :=
  placed.nameBehind (packageFront package)

mutual

/-- The type and the types among its members, with the types around them. -/
def TypeDecl.placed (around : List TypeDecl) : TypeDecl → List PlacedType
  | ⟨k, n, m, t, p, i, ms, s⟩ =>
      ⟨around, ⟨k, n, m, t, p, i, ms, s⟩⟩ ::
        Member.placedTypes (around ++ [⟨k, n, m, t, p, i, ms, s⟩]) ms

/-- The types among the members, with the types around them. -/
def Member.placedTypes (around : List TypeDecl) : List Member → List PlacedType
  | [] => []
  | .type t :: ms => t.placed around ++ Member.placedTypes around ms
  | _ :: ms => Member.placedTypes around ms

end

namespace Outline

/-- The types of a unit with the types around them, outer types first. -/
def placedTypes (o : Outline) : List PlacedType := o.types.flatMap (TypeDecl.placed [])

/-- In a unit, types stand around a type: each is a member of the one before it. -/
inductive Nests (o : Outline) : List TypeDecl → TypeDecl → Prop
  | top {t : TypeDecl} (h : t ∈ o.types) : Nests o [] t
  | member {around : List TypeDecl} {outer t : TypeDecl} (houter : Nests o around outer)
      (h : .type t ∈ outer.members) : Nests o (around ++ [outer]) t

end Outline

mutual

/-- The types of a type are listed in their order. -/
theorem TypeDecl.decl_placed (around : List TypeDecl) :
    (t : TypeDecl) → (t.placed around).map PlacedType.decl = t.withNested
  | ⟨_, _, _, _, _, _, ms, _⟩ => by
      rw [TypeDecl.placed, TypeDecl.withNested, List.map_cons, Member.decl_placedTypes _ ms]

theorem Member.decl_placedTypes (around : List TypeDecl) :
    (ms : List Member) → (Member.placedTypes around ms).map PlacedType.decl = Member.nestedTypes ms
  | [] => rfl
  | .field _ :: ms | .method _ :: ms | .initializer _ :: ms | .enumConstant _ :: ms =>
      Member.decl_placedTypes around ms
  | .type t :: ms => by
      rw [Member.placedTypes, Member.nestedTypes, List.map_append, TypeDecl.decl_placed around t,
        Member.decl_placedTypes around ms]

end

mutual

/-- What is listed around a type stands around it. -/
theorem TypeDecl.nests_of_mem_placed {o : Outline} {around : List TypeDecl} {p : PlacedType} :
    (t : TypeDecl) → o.Nests around t → p ∈ t.placed around → o.Nests p.around p.decl
  | ⟨_, _, _, _, _, _, ms, _⟩, h, hp => by
      rw [TypeDecl.placed, List.mem_cons] at hp
      rcases hp with rfl | hp
      · exact h
      · exact Member.nests_of_mem_placedTypes ms (fun _ ht => h.member ht) hp

theorem Member.nests_of_mem_placedTypes {o : Outline} {around : List TypeDecl} {p : PlacedType} :
    (ms : List Member) → (∀ t, .type t ∈ ms → o.Nests around t) →
      p ∈ Member.placedTypes around ms → o.Nests p.around p.decl
  | [], _, hp => nomatch hp
  | .field _ :: ms, h, hp | .method _ :: ms, h, hp | .initializer _ :: ms, h, hp
  | .enumConstant _ :: ms, h, hp =>
      Member.nests_of_mem_placedTypes ms (fun t ht => h t (List.mem_cons_of_mem _ ht)) hp
  | .type t :: ms, h, hp => by
      rw [Member.placedTypes, List.mem_append] at hp
      rcases hp with hp | hp
      · exact TypeDecl.nests_of_mem_placed t (h t List.mem_cons_self) hp
      · exact Member.nests_of_mem_placedTypes ms (fun t ht => h t (List.mem_cons_of_mem _ ht)) hp

end

/-- A type is listed first among its types. -/
theorem TypeDecl.mem_placed_self (around : List TypeDecl) (t : TypeDecl) :
    ⟨around, t⟩ ∈ t.placed around := by
  obtain ⟨_, _, _, _, _, _, _, _⟩ := t
  rw [TypeDecl.placed]
  exact List.mem_cons_self

/-- The types among members are listed. -/
theorem Member.mem_placedTypes {around : List TypeDecl} {t : TypeDecl} {ms : List Member}
    (h : .type t ∈ ms) : ⟨around, t⟩ ∈ Member.placedTypes around ms := by
  induction ms with
  | nil => cases h
  | cons m ms ih =>
      rcases List.mem_cons.1 h with rfl | hlater
      · rw [Member.placedTypes]
        exact List.mem_append_left _ (TypeDecl.mem_placed_self around t)
      · cases m with
        | type u =>
            rw [Member.placedTypes]
            exact List.mem_append_right _ (ih hlater)
        | field decl => exact ih hlater
        | method decl => exact ih hlater
        | initializer decl => exact ih hlater
        | enumConstant decl => exact ih hlater

mutual

/-- With a type its members are listed. -/
theorem TypeDecl.mem_placed_member {around : List TypeDecl} {p : PlacedType} {u : TypeDecl} :
    (t : TypeDecl) → p ∈ t.placed around → .type u ∈ p.decl.members →
      ⟨p.around ++ [p.decl], u⟩ ∈ t.placed around
  | ⟨_, _, _, _, _, _, ms, _⟩, hp, hu => by
      rw [TypeDecl.placed, List.mem_cons] at hp ⊢
      rcases hp with rfl | hp
      · exact .inr (Member.mem_placedTypes hu)
      · exact .inr (Member.mem_placedTypes_member ms hp hu)

theorem Member.mem_placedTypes_member {around : List TypeDecl} {p : PlacedType} {u : TypeDecl} :
    (ms : List Member) → p ∈ Member.placedTypes around ms → .type u ∈ p.decl.members →
      ⟨p.around ++ [p.decl], u⟩ ∈ Member.placedTypes around ms
  | [], hp, _ => nomatch hp
  | .field _ :: ms, hp, hu | .method _ :: ms, hp, hu | .initializer _ :: ms, hp, hu
  | .enumConstant _ :: ms, hp, hu => Member.mem_placedTypes_member ms hp hu
  | .type t :: ms, hp, hu => by
      rw [Member.placedTypes, List.mem_append] at hp ⊢
      rcases hp with hp | hp
      · exact .inl (TypeDecl.mem_placed_member t hp hu)
      · exact .inr (Member.mem_placedTypes_member ms hp hu)

end

namespace Outline

variable (o : Outline)

/-- **The types are listed in their order.** -/
theorem decl_placedTypes : o.placedTypes.map PlacedType.decl = o.allTypes := by
  simp only [placedTypes, allTypes, List.map_flatMap, TypeDecl.decl_placed]

/-- **Every type is listed with the types around it.** -/
theorem mem_placedTypes {around : List TypeDecl} {t : TypeDecl} :
    ⟨around, t⟩ ∈ o.placedTypes ↔ o.Nests around t := by
  constructor
  · intro h
    obtain ⟨top, htop, h⟩ := List.mem_flatMap.1 h
    exact TypeDecl.nests_of_mem_placed top (.top htop) h
  · intro h
    induction h with
    | top h => exact List.mem_flatMap.2 ⟨_, h, TypeDecl.mem_placed_self [] _⟩
    | member _ hmember ih =>
        obtain ⟨top, htop, houter⟩ := List.mem_flatMap.1 ih
        exact List.mem_flatMap.2 ⟨top, htop, TypeDecl.mem_placed_member top houter hmember⟩

end Outline

/-! ### Names of types -/

/-- One more part at the end of a name. -/
theorem intercalate_concat (separator last : String) {parts : List String} (h : parts ≠ []) :
    separator.intercalate (parts ++ [last]) = separator.intercalate parts ++ separator ++ last := by
  induction parts with
  | nil => exact absurd rfl h
  | cons part parts ih =>
      cases parts with
      | nil => simp [String.intercalate_cons_cons]
      | cons next parts =>
          have hnext := ih (List.cons_ne_nil next parts)
          simp only [List.cons_append, String.intercalate_cons_cons] at hnext ⊢
          rw [hnext]
          simp only [String.append_assoc]

/-- A simple name in a package. -/
theorem qualify_eq (package : Option String) (simple : String) :
    qualify package simple = ".".intercalate (packageFront package ++ [simple]) := by
  unfold qualify packageFront
  cases package with
  | none => simp
  | some name =>
      by_cases hname : name = ""
      · simp [hname]
      · simp [hname, String.intercalate_cons_cons]

mutual

/-- The names under which the types of a type are entered. -/
theorem TypeDecl.declared_eq (front : List String) (around : List TypeDecl) :
    (t : TypeDecl) → t.declared ((⟨around, t⟩ : PlacedType).nameBehind front) =
      (t.placed around).map fun p => (p.nameBehind front, p.decl.span)
  | ⟨k, n, m, t, p, i, ms, s⟩ => by
      rw [TypeDecl.placed, TypeDecl.declared, List.map_cons]
      have hmembers := Member.declaredTypes_eq front (around ++ [⟨k, n, m, t, p, i, ms, s⟩])
        (by simp) ms
      rw [List.map_append, ← List.append_assoc] at hmembers
      rw [← hmembers]
      rfl

theorem Member.declaredTypes_eq (front : List String) (around : List TypeDecl)
    (hinside : around ≠ []) :
    (ms : List Member) →
      Member.declaredTypes (".".intercalate (front ++ around.map TypeDecl.name)) ms =
        (Member.placedTypes around ms).map fun p => (p.nameBehind front, p.decl.span)
  | [] => rfl
  | .field _ :: ms | .method _ :: ms | .initializer _ :: ms | .enumConstant _ :: ms =>
      Member.declaredTypes_eq front around hinside ms
  | .type t :: ms => by
      have hname : ".".intercalate (front ++ around.map TypeDecl.name) ++ "." ++ t.name =
          (⟨around, t⟩ : PlacedType).nameBehind front := by
        rw [PlacedType.nameBehind, intercalate_concat]
        simp [hinside]
      rw [Member.declaredTypes, Member.placedTypes, List.map_append, hname,
        TypeDecl.declared_eq front around t, Member.declaredTypes_eq front around hinside ms]

end

/-- **The names under which the types of a unit are entered.** -/
theorem Outline.declaredTypes_eq (o : Outline) :
    o.declaredTypes = o.placedTypes.map fun p => (p.qualifiedName o.packageName, p.decl.span) := by
  unfold declaredTypes placedTypes
  rw [List.map_flatMap]
  congr 1
  funext t
  rw [qualify_eq]
  have h := TypeDecl.declared_eq (packageFront o.packageName) [] t
  simpa [PlacedType.nameBehind, PlacedType.qualifiedName] using h

/-! ### First declarations -/

/-- The types that a unit declares, as they can be entered. -/
def CompilationUnit.declarations (unit : CompilationUnit) : List TypeBinding :=
  match unit.outline with
  | none => []
  | some outline =>
      outline.placedTypes.map fun p =>
        { name := p.qualifiedName outline.packageName, file := unit.file, span := p.decl.span }

/-- The first of several declarations with a name. -/
def firstNamed? (declared : List TypeBinding) (name : String) : Option TypeBinding :=
  declared.find? (·.name == name)

theorem firstNamed?_isSome_iff {declared : List TypeBinding} {name : String} :
    (firstNamed? declared name).isSome = true ↔ ∃ earlier ∈ declared, earlier.name = name := by
  simp [firstNamed?, List.find?_isSome]

/-- More declarations behind do not change what is the first one. -/
theorem firstNamed?_append {declared : List TypeBinding} {name : String} {first : TypeBinding}
    (h : firstNamed? declared name = some first) (more : List TypeBinding) :
    firstNamed? (declared ++ more) name = some first := by
  rw [firstNamed?] at h ⊢
  rw [List.find?_append, h]
  rfl

/-- What is first up to a unit is first among all units. -/
theorem firstNamed?_flatMap {units : List CompilationUnit} {index : Nat} {unit : CompilationUnit}
    (hunit : units[index]? = some unit) {name : String} {first : TypeBinding}
    (h : firstNamed? ((units.take index).flatMap CompilationUnit.declarations ++ unit.declarations)
      name = some first) :
    firstNamed? (units.flatMap CompilationUnit.declarations) name = some first := by
  have hsplit : units = units.take index ++ unit :: units.drop (index + 1) := by
    obtain ⟨hlt, hget⟩ := List.getElem?_eq_some_iff.1 hunit
    rw [← hget, ← List.drop_eq_getElem_cons hlt, List.take_append_drop]
  rw [hsplit, List.flatMap_append, List.flatMap_cons, ← List.append_assoc]
  exact firstNamed?_append h _

namespace TypeIndex

/-- An index has the first of several declarations under each name, and no name twice. -/
structure HoldsFirsts (index : TypeIndex) (declared : List TypeBinding) : Prop where
  distinct : index.names.Nodup
  find : ∀ name, index.find? name = firstNamed? declared name

variable {index : TypeIndex} {declared : List TypeBinding}

/-- The empty index. -/
theorem holdsFirsts_nil : HoldsFirsts {} [] where
  distinct := List.nodup_nil
  find := fun _ => rfl

/-- A declaration is refused if one in front of it has its name. -/
theorem HoldsFirsts.refused (h : index.HoldsFirsts declared) {binding first : TypeBinding}
    (hfirst : firstNamed? declared binding.name = some first) :
    index.define binding = .error first ∧ index.HoldsFirsts (declared ++ [binding]) := by
  have hfind : index.find? binding.name = some first := (h.find binding.name).trans hfirst
  refine ⟨by simp only [define, hfind], h.distinct, ?_⟩
  intro name
  rw [h.find name, firstNamed?, firstNamed?, List.find?_append]
  by_cases hname : binding.name = name
  · rw [← hname, ← firstNamed?, hfirst]
    rfl
  · have hother : [binding].find? (·.name == name) = none := by simp [hname]
    rw [hother, Option.or_none]

/-- Otherwise it is entered. -/
theorem HoldsFirsts.entered (h : index.HoldsFirsts declared) {binding : TypeBinding}
    (hnew : firstNamed? declared binding.name = none) :
    ∃ next, index.define binding = .ok next ∧ next.HoldsFirsts (declared ++ [binding]) := by
  have hfind : index.find? binding.name = none := (h.find binding.name).trans hnew
  have hdefine : index.define binding = .ok { bindings := index.bindings ++ [binding] } := by
    simp only [define, hfind]
  refine ⟨_, hdefine, ?_, ?_⟩
  · have hunknown : binding.name ∉ index.names := by
      intro hmem
      have hknown := knowsType_iff.2 hmem
      rw [knowsType, hfind] at hknown
      cases hknown
    rw [names, List.map_append, List.nodup_append]
    refine ⟨h.distinct, List.nodup_singleton _, ?_⟩
    rintro name hname other hother rfl
    exact hunknown (List.mem_singleton.1 hother ▸ hname)
  · intro name
    rw [find?_define hdefine name, h.find name, firstNamed?, firstNamed?, List.find?_append]
    by_cases hname : binding.name = name
    · rw [if_pos hname, ← hname, ← firstNamed?, hnew]
      simp
    · rw [if_neg hname]
      have hother : [binding].find? (·.name == name) = none := by simp [hname]
      rw [hother, Option.or_none]

end TypeIndex

namespace SourceFrontEnd

/-- What is reported for a declaration at a place, if others stand in front of the list: the problem
that its name is taken, if one in front has it. -/
def repeatAt (before declared : List TypeBinding) (place : Nat) : Option Problem :=
  declared[place]?.bind fun binding =>
    (firstNamed? (before ++ declared.take place) binding.name).map fun first =>
      repeatedType binding.name first binding.span

/-- What is reported for all declarations of a list. -/
def repeatsAmong (before declared : List TypeBinding) : List Problem :=
  (List.range declared.length).filterMap (repeatAt before declared)

theorem repeatsAmong_cons (before : List TypeBinding) (binding : TypeBinding)
    (declared : List TypeBinding) :
    repeatsAmong before (binding :: declared) =
      ((firstNamed? before binding.name).map fun first =>
        repeatedType binding.name first binding.span).toList ++
        repeatsAmong (before ++ [binding]) declared := by
  have hfirst : repeatAt before (binding :: declared) 0 =
      (firstNamed? before binding.name).map fun first =>
        repeatedType binding.name first binding.span := by
    simp [repeatAt]
  have hlater (place : Nat) : repeatAt before (binding :: declared) (place + 1) =
      repeatAt (before ++ [binding]) declared place := by
    simp [repeatAt]
  rw [repeatsAmong, List.length_cons, List.range_succ_eq_map, List.filterMap_cons, hfirst,
    List.filterMap_map]
  have hbehind : (repeatAt before (binding :: declared)) ∘ Nat.succ =
      repeatAt (before ++ [binding]) declared := funext hlater
  rw [hbehind, ← repeatsAmong]
  cases firstNamed? before binding.name <;> rfl

/-- **Entering the types of a file behind others.** -/
theorem defineAll_holdsFirsts (file : String) (declared : List (String × Span)) {types : TypeIndex}
    {before : List TypeBinding} (h : types.HoldsFirsts before) :
    let bindings := declared.map fun d => ({ name := d.1, file, span := d.2 } : TypeBinding)
    (defineAll file declared types).1 = repeatsAmong before bindings ∧
      (defineAll file declared types).2.HoldsFirsts (before ++ bindings) := by
  induction declared generalizing types before with
  | nil => exact ⟨rfl, by simpa [defineAll] using h⟩
  | cons first declared ih =>
      obtain ⟨name, span⟩ := first
      let binding : TypeBinding := { name, file, span }
      cases hfirst : firstNamed? before binding.name with
      | some earlier =>
          obtain ⟨hrefused, hnext⟩ := h.refused hfirst
          obtain ⟨hproblems, hholds⟩ := ih hnext
          rw [List.append_assoc] at hholds
          refine ⟨?_, ?_⟩
          · rw [List.map_cons, repeatsAmong_cons, hfirst, ← hproblems, defineAll, hrefused]
            rfl
          · rw [defineAll, hrefused]
            exact hholds
      | none =>
          obtain ⟨next, hentered, hnext⟩ := h.entered hfirst
          obtain ⟨hproblems, hholds⟩ := ih hnext
          rw [List.append_assoc] at hholds
          refine ⟨?_, ?_⟩
          · rw [List.map_cons, repeatsAmong_cons, hfirst, ← hproblems, defineAll, hentered]
            rfl
          · rw [defineAll, hentered]
            exact hholds

/-! ### Units -/

/-- Enters the types of units in order. -/
def bindAll : List CompilationUnit → SourceFrontEnd → List CompilationUnit × SourceFrontEnd
  | [], front => ([], front)
  | unit :: units, front =>
      let (bound, next) := bind unit front
      let (later, last) := bindAll units next
      (bound :: later, last)

/-- What entering the types of a unit keeps, and what it reports. -/
theorem bind_holdsFirsts {front : SourceFrontEnd} {before : List TypeBinding}
    (h : front.types.HoldsFirsts before) (unit : CompilationUnit) :
    (bind unit front).1.report =
        unit.report.recordAll (repeatsAmong before unit.declarations) ∧
      (bind unit front).2.types.HoldsFirsts (before ++ unit.declarations) := by
  unfold bind CompilationUnit.declarations
  cases houtline : unit.outline with
  | none => exact ⟨rfl, by simpa using h⟩
  | some outline =>
      have hbindings : (outline.declaredTypes.map fun d =>
          ({ name := d.1, file := unit.file, span := d.2 } : TypeBinding)) =
          outline.placedTypes.map fun p =>
            { name := p.qualifiedName outline.packageName, file := unit.file, span := p.decl.span } := by
        rw [Outline.declaredTypes_eq, List.map_map]
        rfl
      obtain ⟨hproblems, hholds⟩ := defineAll_holdsFirsts unit.file outline.declaredTypes h
      rw [hbindings] at hproblems hholds
      exact ⟨congrArg (UnitReport.recordAll unit.report) hproblems, hholds⟩

/-- What entering the types of units keeps, and what it reports for each of them. -/
theorem bindAll_holdsFirsts {front : SourceFrontEnd} {before : List TypeBinding}
    (h : front.types.HoldsFirsts before) (units : List CompilationUnit) :
    (bindAll units front).2.types.HoldsFirsts
        (before ++ units.flatMap CompilationUnit.declarations) ∧
      ∀ (place : Nat) (unit : CompilationUnit), units[place]? = some unit →
        ∃ bound, (bindAll units front).1[place]? = some bound ∧
        bound.report = unit.report.recordAll (repeatsAmong
          (before ++ (units.take place).flatMap CompilationUnit.declarations) unit.declarations) := by
  induction units generalizing front before with
  | nil => exact ⟨by simpa [bindAll] using h, by simp⟩
  | cons first units ih =>
      obtain ⟨hreport, hnext⟩ := bind_holdsFirsts h first
      obtain ⟨hlast, hlater⟩ := ih hnext
      rw [List.append_assoc, ← List.flatMap_cons] at hlast
      refine ⟨hlast, ?_⟩
      intro place unit hunit
      cases place with
      | zero =>
          obtain rfl : first = unit := Option.some.inj hunit
          exact ⟨(bind first front).1, rfl, by simpa using hreport⟩
      | succ place =>
          obtain ⟨bound, hbound, hreport⟩ := hlater place unit hunit
          refine ⟨bound, hbound, ?_⟩
          rw [hreport, List.take_succ_cons, List.flatMap_cons, List.append_assoc]

end SourceFrontEnd

/-- Problems that there is room for are kept behind the others. -/
theorem UnitReport.problems_recordAll {report : UnitReport} {problems : List Problem}
    (h : report.problems.length + problems.length ≤ report.maxProblems) :
    (report.recordAll problems).problems = report.problems ++ problems := by
  induction problems generalizing report with
  | nil => simp [recordAll]
  | cons problem problems ih =>
      rw [List.length_cons] at h
      have hroom : report.problems.length < report.maxProblems := by omega
      have hrecord : report.record problem =
          { report with problems := report.problems ++ [problem] } := by
        rw [record, if_pos hroom]
      have hlater : ((report.record problem).recordAll problems).problems =
          (report.record problem).problems ++ problems := by
        refine ih ?_
        rw [hrecord]
        simp only [List.length_append, List.length_singleton]
        omega
      rw [recordAll, List.foldl_cons, ← recordAll, hlater, hrecord]
      simp

namespace SourceFrontEnd

/-- When a declaration is reported: one in front of it has its name.  The problem names the file of the
first one. -/
theorem repeatAt_spec (before : List TypeBinding) {declared : List TypeBinding} {place : Nat}
    {binding : TypeBinding} (hbinding : declared[place]? = some binding) :
    ((repeatAt before declared place).isSome = true ↔
      (∃ earlier ∈ before, earlier.name = binding.name) ∨
        ∃ earlier ∈ declared.take place, earlier.name = binding.name) ∧
    ∀ problem, repeatAt before declared place = some problem →
      ∃ first, firstNamed? (before ++ declared) binding.name = some first ∧
        problem = repeatedType binding.name first binding.span := by
  have hat : repeatAt before declared place =
      (firstNamed? (before ++ declared.take place) binding.name).map fun first =>
        repeatedType binding.name first binding.span := by
    rw [repeatAt, hbinding]
    rfl
  rw [hat]
  constructor
  · rw [Option.isSome_map, firstNamed?_isSome_iff]
    simp only [List.mem_append, or_and_right, exists_or]
  · intro problem hproblem
    obtain ⟨first, hfirst, rfl⟩ := Option.map_eq_some_iff.1 hproblem
    refine ⟨first, ?_, rfl⟩
    have hmore := firstNamed?_append hfirst (declared.drop place)
    rwa [List.append_assoc, List.take_append_drop] at hmore

/-- **The index and the problems after any units.**  The types of a unit are those that it lists, each
with the types around it.  If the types of units are entered in order, the index knows exactly their
names, and has under each name the first declaration with it.  A unit is told of a declaration exactly
if a unit in front of it, or a declaration in front in the same unit, has the name; it is told the file
of the first one. -/
theorem bindAll_firstDeclarations (units : List CompilationUnit) (front : SourceFrontEnd) :
    let declared := units.flatMap CompilationUnit.declarations
    let bound := bindAll units { front with types := {} }
    (∀ unit ∈ units, ∀ outline, unit.outline = some outline →
      outline.placedTypes.map PlacedType.decl = outline.allTypes ∧
      (∀ around t, ⟨around, t⟩ ∈ outline.placedTypes ↔ outline.Nests around t) ∧
      unit.declarations = outline.placedTypes.map fun p =>
        { name := p.qualifiedName outline.packageName, file := unit.file, span := p.decl.span }) ∧
    (∀ name, bound.2.types.knowsType name = true ↔ ∃ declaration ∈ declared, declaration.name = name) ∧
    (∀ name, bound.2.types.find? name = declared.find? (·.name == name)) ∧
    bound.2.types.names.Nodup ∧
    ∀ (index : Nat) (unit : CompilationUnit), units[index]? = some unit →
      let before := (units.take index).flatMap CompilationUnit.declarations
      let problems := (List.range unit.declarations.length).filterMap (repeatAt before unit.declarations)
      (∃ after, bound.1[index]? = some after ∧
        (unit.report.problems.length + problems.length ≤ unit.report.maxProblems →
          after.report.problems = unit.report.problems ++ problems)) ∧
      ∀ (place : Nat) (declaration : TypeBinding), unit.declarations[place]? = some declaration →
        ((repeatAt before unit.declarations place).isSome = true ↔
          (∃ other ∈ units.take index, ∃ earlier ∈ other.declarations,
            earlier.name = declaration.name) ∨
          ∃ earlier ∈ unit.declarations.take place, earlier.name = declaration.name) ∧
        ∀ problem, repeatAt before unit.declarations place = some problem →
          ∃ first, bound.2.types.find? declaration.name = some first ∧
            problem =
              { code := .duplicateType
                message := "The type " ++ declaration.name ++ " is already defined in " ++ first.file
                span := some declaration.span
                isError := true } := by
  intro declared bound
  have hempty : ({ front with types := {} } : SourceFrontEnd).types.HoldsFirsts [] :=
    TypeIndex.holdsFirsts_nil
  obtain ⟨hholds, hreports⟩ := bindAll_holdsFirsts hempty units
  rw [List.nil_append] at hholds
  refine ⟨?_, ?_, hholds.find, hholds.distinct, ?_⟩
  · intro unit _ outline houtline
    refine ⟨outline.decl_placedTypes, fun _ _ => outline.mem_placedTypes, ?_⟩
    rw [CompilationUnit.declarations, houtline]
  · intro name
    rw [TypeIndex.knowsType, hholds.find name, firstNamed?_isSome_iff]
  · intro index unit hunit before problems
    constructor
    · obtain ⟨after, hafter, hreport⟩ := hreports index unit hunit
      refine ⟨after, hafter, ?_⟩
      intro hroom
      rw [hreport]
      exact UnitReport.problems_recordAll hroom
    · intro place declaration hdeclaration
      obtain ⟨hiff, hproblem⟩ := repeatAt_spec before hdeclaration
      constructor
      · rw [hiff]
        simp only [before, List.mem_flatMap]
        grind
      · intro problem hreported
        obtain ⟨first, hfirst, rfl⟩ := hproblem problem hreported
        refine ⟨first, ?_, rfl⟩
        rw [hholds.find]
        exact firstNamed?_flatMap hunit hfirst

/-- Two files declare the same type with a type inside it: the second file is told of both types, and
there is room for both problems. -/
theorem bindAll_firstDeclarations_nested :
    let inner : TypeDecl := { kind := .classType, name := "B", span := {} }
    let outer : TypeDecl := { kind := .classType, name := "A", members := [.type inner], span := {} }
    let unit (file : String) : CompilationUnit :=
      .make file .requested { file, maxProblems := 2 } none (some { types := [outer] })
    let taken (name : String) : Problem :=
      { code := .duplicateType
        message := "The type " ++ name ++ " is already defined in one/A.java"
        span := some {}
        isError := true }
    ∃ after, (bindAll [unit "one/A.java", unit "two/A.java"] {}).1[1]? = some after ∧
      after.report.problems = [taken "A", taken "A.B"] := by
  intro inner outer unit taken
  obtain ⟨⟨after, hafter, hkept⟩, -⟩ :=
    (bindAll_firstDeclarations [unit "one/A.java", unit "two/A.java"] {}).2.2.2.2 1
      (unit "two/A.java") rfl
  have hproblems : repeatsAmong ([unit "one/A.java"].flatMap CompilationUnit.declarations)
      (unit "two/A.java").declarations = [taken "A", taken "A.B"] := by
    decide +kernel
  rw [← repeatsAmong, show [unit "one/A.java", unit "two/A.java"].take 1 = [unit "one/A.java"] from rfl,
    hproblems] at hkept
  exact ⟨after, hafter, hkept (Nat.le_refl 2)⟩

end SourceFrontEnd

end JavaOutline
