/-
**Methods that are declared twice.**

The check of a type goes through its members and reports a method whose key is the key of a method before
it.  The key says the name and the written types of the parameters.  It does not say whether the method is
a constructor, nor whether its last parameter takes any number of arguments.  So a method that repeats an
earlier one is always reported, and where nothing is wrong with the characters of the source, a method is
reported exactly if an earlier one has its name and its types.  That is more than should be: a method
named like its class is taken for the constructor, and `int...` for `int`.

Main definitions:

* `TypeDecl.problemsAt` — what the check reports at a place among the members of a type;
* `TypeDecl.methodsBefore` — the methods in front of a place;
* `MethodDecl.SameSignature`, `MethodDecl.SameTypes` — a method repeats another one, or seems to.

Main results:

* `TypeDecl.problemsAt_method` — a method is reported if its key was met before;
* `Outline.repeatedMethods_reported` — **when a method is reported, and where that is wrong**.
-/

import Mathlib.Data.List.Basic
import JavaOutline.FrontEnd.Checks
import JavaOutline.Proofs.WrittenSignatures

set_option autoImplicit false

namespace JavaOutline

/-! ### The check, member by member -/

/-- The method that a member is. -/
def Member.method? : Member → Option MethodDecl
  | .method decl => some decl
  | .field _ | .initializer _ | .type _ | .enumConstant _ => none

theorem Member.method?_eq_some {member : Member} {m : MethodDecl} :
    member.method? = some m ↔ member = .method m := by
  cases member <;> simp [method?]

/-- Behind some members the check goes on with the keys of their methods. -/
theorem repeatedFrom_append (typeName : String) (front : List Member) (fields methods : List String) :
    ∃ names keys, (∀ key, key ∈ keys ↔
        key ∈ methods ∨ ∃ e ∈ front.filterMap Member.method?, e.signatureKey = key) ∧
      ∀ back, repeatedFrom typeName fields methods (front ++ back) =
        repeatedFrom typeName fields methods front ++ repeatedFrom typeName names keys back := by
  induction front generalizing fields methods with
  | nil => exact ⟨fields, methods, by simp, fun _ => rfl⟩
  | cons member front ih =>
      cases member with
      | field decl =>
          obtain ⟨names, keys, hkeys, hback⟩ := ih (decl.declarators.map VariableDecl.name ++ fields)
            methods
          refine ⟨names, keys, hkeys, fun back => ?_⟩
          rw [List.cons_append, repeatedFrom, repeatedFrom, hback, List.append_assoc]
      | method decl =>
          obtain ⟨names, keys, hkeys, hback⟩ := ih fields (decl.signatureKey :: methods)
          refine ⟨names, keys, fun key => ?_, fun back => ?_⟩
          · rw [hkeys, List.filterMap_cons_some (show Member.method? (.method decl) = some decl from rfl),
              List.exists_mem_cons_iff, List.mem_cons, or_assoc, or_left_comm, eq_comm (a := key)]
          · rw [List.cons_append, repeatedFrom, repeatedFrom, hback, List.append_assoc]
      | initializer decl => exact ih fields methods
      | type decl => exact ih fields methods
      | enumConstant decl => exact ih fields methods

namespace TypeDecl

/-- What the check of a type reports at a place among the members: what is reported for the members up
to there, without what is reported for those in front. -/
def problemsAt (t : TypeDecl) (place : Nat) : List Problem :=
  (repeatedFrom t.name [] [] (t.members.take (place + 1))).drop
    (repeatedFrom t.name [] [] (t.members.take place)).length

/-- The methods in front of a place among the members. -/
def methodsBefore (t : TypeDecl) (place : Nat) : List MethodDecl :=
  (t.members.take place).filterMap Member.method?

variable (t : TypeDecl)

/-- What is reported up to a place, and at the place. -/
theorem repeatedFrom_take_succ (place : Nat) :
    repeatedFrom t.name [] [] (t.members.take (place + 1)) =
      repeatedFrom t.name [] [] (t.members.take place) ++ t.problemsAt place := by
  obtain ⟨names, keys, -, hback⟩ := repeatedFrom_append t.name (t.members.take place) [] []
  rw [problemsAt, List.take_add_one, hback, List.drop_left]

/-- **The check reports what it reports at the places.** -/
theorem repeatedFrom_eq_flatMap :
    repeatedFrom t.name [] [] t.members =
      (List.range t.members.length).flatMap t.problemsAt := by
  have hup (place : Nat) : repeatedFrom t.name [] [] (t.members.take place) =
      (List.range place).flatMap t.problemsAt := by
    induction place with
    | zero => rfl
    | succ place ih => rw [repeatedFrom_take_succ, ih, List.range_succ, List.flatMap_append,
        List.flatMap_singleton]
  rw [← hup, List.take_length]

/-- **A method is reported if its key was met before.** -/
theorem problemsAt_method {place : Nat} {m : MethodDecl} (hm : t.members[place]? = some (.method m)) :
    t.problemsAt place =
      if ∃ e ∈ t.methodsBefore place, e.signatureKey = m.signatureKey then [repeatedMethod t.name m]
      else [] := by
  obtain ⟨names, keys, hkeys, hback⟩ := repeatedFrom_append t.name (t.members.take place) [] []
  have hiff : keys.contains m.signatureKey = true ↔
      ∃ e ∈ t.methodsBefore place, e.signatureKey = m.signatureKey := by
    rw [List.contains_iff_mem, hkeys]
    simp [methodsBefore]
  rw [problemsAt, List.take_add_one, hm, hback, List.drop_left]
  simp only [Option.toList_some, repeatedFrom, List.append_nil, hiff]

end TypeDecl

/-! ### Completed outlines -/

/-- The names of the methods of a type and the types of their parameters. -/
def TypeDecl.signatures (t : TypeDecl) : List (String × List String) :=
  (t.members.filterMap Member.method?).map fun m => (m.name, m.parameters.map Parameter.typeName)

/-- Completing a type keeps its signatures. -/
theorem TypeDecl.signatures_complete (text : List Char) (t : TypeDecl) :
    (t.complete text).1.signatures = t.signatures := by
  obtain ⟨_, _, _, _, _, _, members, _⟩ := t
  simp only [complete, signatures]
  induction members with
  | nil => rfl
  | cons member members ih =>
      rw [Member.completeAll]
      cases member with
      | method decl =>
          simp only [Member.complete, List.filterMap_cons, Member.method?, List.map_cons, ih]
      | enumConstant decl =>
          obtain ⟨_, _, body, _⟩ := decl
          cases body <;> exact ih
      | field decl => exact ih
      | initializer decl => exact ih
      | type decl => exact ih

mutual

/-- The types in a completed type have the signatures that they had. -/
theorem TypeDecl.nestedSignatures_complete (text : List Char) :
    (t : TypeDecl) → (t.complete text).1.withNested.map TypeDecl.signatures =
      t.withNested.map TypeDecl.signatures
  | ⟨kind, name, modifiers, typeParameters, superclass, interfaces, members, span⟩ => by
      have hown := TypeDecl.signatures_complete text
        ⟨kind, name, modifiers, typeParameters, superclass, interfaces, members, span⟩
      simp only [TypeDecl.complete] at hown
      simp only [TypeDecl.complete, TypeDecl.withNested, List.map_cons, hown,
        Member.nestedSignatures_completeAll text members]

/-- The types among completed members have the signatures that they had. -/
theorem Member.nestedSignatures_completeAll (text : List Char) :
    (ms : List Member) →
      (Member.nestedTypes (Member.completeAll text ms).1).map TypeDecl.signatures =
        (Member.nestedTypes ms).map TypeDecl.signatures
  | [] => rfl
  | .field _ :: ms | .method _ :: ms | .initializer _ :: ms
  | .enumConstant ⟨_, _, none, _⟩ :: ms | .enumConstant ⟨_, _, some _, _⟩ :: ms => by
      simp only [Member.completeAll, Member.complete, Member.nestedTypes,
        Member.nestedSignatures_completeAll text ms]
  | .type t :: ms => by
      simp only [Member.completeAll, Member.complete, Member.nestedTypes, List.map_append,
        TypeDecl.nestedSignatures_complete text t, Member.nestedSignatures_completeAll text ms]

end

theorem TypeDecl.mem_signatures {t : TypeDecl} {signature : String × List String} :
    signature ∈ t.signatures ↔ ∃ m, Member.method m ∈ t.members ∧
      (m.name, m.parameters.map Parameter.typeName) = signature := by
  simp only [signatures, List.mem_map, List.mem_filterMap, Member.method?_eq_some]
  constructor
  · rintro ⟨m, ⟨_, hm, rfl⟩, rfl⟩
    exact ⟨m, hm, rfl⟩
  · rintro ⟨m, hm, rfl⟩
    exact ⟨m, ⟨_, hm, rfl⟩, rfl⟩

/-- **The signatures of a completed outline are written with the tokens that they were written with.** -/
theorem Outline.WrittenWith.complete {tokens : List Token} {o : Outline} (h : o.WrittenWith tokens)
    (source : String) : (o.complete source).1.WrittenWith tokens := by
  have hsame : (o.complete source).1.allTypes.map TypeDecl.signatures =
      o.allTypes.map TypeDecl.signatures := by
    simp only [Outline.complete, allTypes, List.map_map, List.flatMap_map, List.map_flatMap,
      Function.comp_apply, TypeDecl.nestedSignatures_complete]
  intro t ht m hm
  have hmem : t.signatures ∈ o.allTypes.map TypeDecl.signatures :=
    hsame ▸ List.mem_map_of_mem ht
  obtain ⟨u, hu, hsignatures⟩ := List.mem_map.1 hmem
  have hsignature := TypeDecl.mem_signatures.2 ⟨m, hm, rfl⟩
  rw [← hsignatures] at hsignature
  obtain ⟨e, he, heq⟩ := TypeDecl.mem_signatures.1 hsignature
  obtain ⟨hname, htypes⟩ := Prod.mk.inj heq
  have hwritten := h u hu e he
  refine ⟨hname ▸ hwritten.name, List.forall_mem_map.1 ?_⟩
  rw [← htypes]
  exact List.forall_mem_map.2 hwritten.types

/-! ### Repeated methods -/

namespace MethodDecl

/-- The types of the parameters as they are written, and whether a parameter takes any number of
arguments. -/
def parameterTypes (m : MethodDecl) : List (String × Bool) :=
  m.parameters.map fun p => (p.typeName, p.varargs)

/-- Two methods, or two constructors, with the same name and the same types of parameters. -/
def SameSignature (e m : MethodDecl) : Prop :=
  e.isConstructor = m.isConstructor ∧ e.name = m.name ∧ e.parameterTypes = m.parameterTypes

instance (e m : MethodDecl) : Decidable (e.SameSignature m) :=
  inferInstanceAs (Decidable (_ ∧ _ ∧ _))

/-- The same name and the same types, without their numbers of arguments. -/
def SameTypes (e m : MethodDecl) : Prop :=
  e.name = m.name ∧ e.parameters.map Parameter.typeName = m.parameters.map Parameter.typeName

instance (e m : MethodDecl) : Decidable (e.SameTypes m) := inferInstanceAs (Decidable (_ ∧ _))

/-- A method with the signature of another one has its types. -/
theorem SameSignature.sameTypes {e m : MethodDecl} (h : e.SameSignature m) : e.SameTypes m := by
  have htypes (m : MethodDecl) : m.parameters.map Parameter.typeName = m.parameterTypes.map Prod.fst := by
    rw [parameterTypes, List.map_map]
    rfl
  exact ⟨h.2.1, by rw [htypes, htypes, h.2.2]⟩

theorem SameTypes.signatureKey_eq {e m : MethodDecl} (h : e.SameTypes m) :
    e.signatureKey = m.signatureKey := by
  rw [signatureKey, signatureKey, h.1, h.2]

end MethodDecl

namespace TypeDecl

/-- The check reports the method at a place. -/
def Reports (t : TypeDecl) (place : Nat) (m : MethodDecl) : Prop :=
  repeatedMethod t.name m ∈ t.problemsAt place

instance (t : TypeDecl) (place : Nat) (m : MethodDecl) : Decidable (t.Reports place m) :=
  inferInstanceAs (Decidable (_ ∈ _))

/-- The method at a place repeats one in front of it. -/
def Repeats (t : TypeDecl) (place : Nat) (m : MethodDecl) : Prop :=
  ∃ e ∈ t.methodsBefore place, e.SameSignature m

instance (t : TypeDecl) (place : Nat) (m : MethodDecl) : Decidable (t.Repeats place m) :=
  inferInstanceAs (Decidable (∃ e ∈ _, _))

/-- The method at a place has the name and the types of one in front of it. -/
def SeemsToRepeat (t : TypeDecl) (place : Nat) (m : MethodDecl) : Prop :=
  ∃ e ∈ t.methodsBefore place, e.SameTypes m

instance (t : TypeDecl) (place : Nat) (m : MethodDecl) : Decidable (t.SeemsToRepeat place m) :=
  inferInstanceAs (Decidable (∃ e ∈ _, _))

variable {t : TypeDecl} {place : Nat} {m : MethodDecl}

/-- A method in front of a place is a member. -/
theorem mem_of_methodsBefore (h : m ∈ t.methodsBefore place) : Member.method m ∈ t.members := by
  obtain ⟨member, hmember, hm⟩ := List.mem_filterMap.1 h
  obtain rfl := Member.method?_eq_some.1 hm
  exact List.mem_of_mem_take hmember

theorem reports_iff (hm : t.members[place]? = some (.method m)) :
    t.Reports place m ↔ ∃ e ∈ t.methodsBefore place, e.signatureKey = m.signatureKey := by
  rw [Reports, problemsAt_method t hm]
  split
  next h => simpa using h
  next h => simpa using h

end TypeDecl

/-! ### The main theorem -/

namespace Outline

/-- **When a method is reported.**  The check of an outline, completed or not, goes through the places of
its types.  It reports a method if the key was met before, and so it misses no method that repeats an
earlier one.  If nothing is wrong with the characters of the source, it reports a method exactly if an
earlier one has its name and its types; this is right unless none of these has its signature. -/
theorem repeatedMethods_reported (source : String) (diet completed : Bool) :
    let tree := (parse source diet).outline
    let o := if completed then (tree.complete source).1 else tree
    (o.repeatedMembers =
      o.allTypes.flatMap fun t => (List.range t.members.length).flatMap t.problemsAt) ∧
    ∀ t ∈ o.allTypes, ∀ place m, t.members[place]? = some (.method m) →
      (t.problemsAt place = if t.Reports place m then [repeatedMethod t.name m] else []) ∧
      (t.Reports place m ↔ ∃ e ∈ t.methodsBefore place, e.signatureKey = m.signatureKey) ∧
      (t.Repeats place m → t.Reports place m) ∧
      ((Scan.ofText source).errors = [] →
        (t.Reports place m ↔ t.SeemsToRepeat place m) ∧
        ((t.Reports place m ↔ t.Repeats place m) ↔
          ¬ (t.SeemsToRepeat place m ∧ ¬ t.Repeats place m))) := by
  intro tree o
  have hwritten : o.WrittenWith (Scan.ofText source).tokens := by
    have htree := parse_writtenWith source diet
    show (if completed then (tree.complete source).1 else tree).WrittenWith _
    split
    · exact htree.complete source
    · exact htree
  refine ⟨?_, fun t ht place m hm => ?_⟩
  · unfold repeatedMembers
    simp only [TypeDecl.repeatedFrom_eq_flatMap]
  have hreports := TypeDecl.reports_iff hm
  have hseems (h : t.Repeats place m) : t.SeemsToRepeat place m := by
    obtain ⟨e, he, hsame⟩ := h
    exact ⟨e, he, hsame.sameTypes⟩
  have hreported (h : t.SeemsToRepeat place m) : t.Reports place m := by
    obtain ⟨e, he, hsame⟩ := h
    exact hreports.2 ⟨e, he, hsame.signatureKey_eq⟩
  refine ⟨?_, hreports, fun h => hreported (hseems h), fun herrors => ?_⟩
  · rw [TypeDecl.problemsAt_method t hm]
    simp only [hreports]
  · have hlexed := lexed_ofChars Position.start source.toList herrors
    have hiff : t.Reports place m ↔ t.SeemsToRepeat place m := by
      refine ⟨fun h => ?_, hreported⟩
      obtain ⟨e, he, hkey⟩ := hreports.1 h
      have hmethod := hwritten t ht m (List.mem_of_getElem? hm)
      have hearlier := hwritten t ht e (TypeDecl.mem_of_methodsBefore he)
      exact ⟨e, he, (hearlier.signatureKey_eq_iff hmethod hlexed).1 hkey⟩
    refine ⟨hiff, ?_⟩
    rw [hiff, not_and_not_right]
    exact ⟨Iff.mp, fun h => ⟨h, hseems⟩⟩

/-- A method of a map from names is declared twice: the second one repeats the first, and the check
reports it. -/
theorem repeatedMethods_reported_map :
    let source := "class A \x7b void m(Map<K, V> a) \x7b \x7d void m(Map<K, V> b) \x7b \x7d \x7d"
    ∃ t ∈ (parse source false).outline.allTypes, ∃ m, t.members[1]? = some (.method m) ∧
      t.Repeats 1 m ∧ t.Reports 1 m ∧ t.problemsAt 1 = [repeatedMethod t.name m] := by
  intro source
  have herrors : (Scan.ofText source).errors = [] := by decide +kernel
  obtain ⟨t, ht, m, hm, hrepeats⟩ : ∃ t ∈ (parse source false).outline.allTypes,
      ∃ m, t.members[1]? = some (.method m) ∧ t.Repeats 1 m := by
    have hany : ((parse source false).outline.allTypes.any fun t =>
        (t.members[1]?.bind Member.method?).any fun m => decide (t.Repeats 1 m)) = true := by
      decide +kernel
    obtain ⟨t, ht, hany⟩ := List.any_eq_true.1 hany
    obtain ⟨m, hm, hrepeats⟩ := (Option.any_eq_true _ _).1 hany
    obtain ⟨member, hmember, hmethod⟩ := Option.bind_eq_some_iff.1 hm
    obtain rfl := Member.method?_eq_some.1 hmethod
    exact ⟨t, ht, m, hmember, of_decide_eq_true hrepeats⟩
  obtain ⟨hproblems, -, hmissed, hsound⟩ :=
    (repeatedMethods_reported source false false).2 t ht 1 m hm
  have hseems := (hsound herrors).1.1 (hmissed hrepeats)
  have hreports := (hsound herrors).1.2 hseems
  rw [if_pos hreports] at hproblems
  exact ⟨t, ht, m, hm, hrepeats, hreports, hproblems⟩

/-- An overload that takes any number of arguments and one that takes a single one, a constructor and a
method named like it, and two lists of types that are told apart only by where a line ends inside of a
string that is not closed: the second method repeats none, and the check reports it. -/
theorem overloads_reported :
    ["class A \x7b void m(int... a) \x7b \x7d void m(int a) \x7b \x7d \x7d",
      "class A \x7b A() \x7b \x7d void A() \x7b \x7d \x7d",
      "class A \x7b void m(B<\"\n> a, D<E > b) \x7b \x7d void m(B<\" >,D<E\n> a) \x7b \x7d \x7d"].all
        fun source => (parse source false).outline.allTypes.any fun t =>
          (t.members[1]?.bind Member.method?).any fun m =>
            decide (t.Reports 1 m ∧ ¬ t.Repeats 1 m) := by
  decide +kernel

end Outline

end JavaOutline
