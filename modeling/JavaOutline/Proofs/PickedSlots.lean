/-
**Units that are picked by number.**

A list of numbers, in any order and with repeats, picks units of a registry.  The numbers are put in
order and their repeats dropped, and then one walk goes along the slots and along the numbers.  No
number ever falls behind the walk, so a number without a unit does not keep the later ones from being
found: every slot with one of the numbers gives its unit, once and in the order of the slots.

Main definitions:

* `pickFrom` — the units in slots with the given numbers, each slot looked at by itself;
* `givingFrom` — the slots that give these units.

Main results:

* `pairwise_inOrder`, `pairwise_withoutRepeats` — numbers in order without repeats ascend;
* `walkSlots_eq` — **the walk finds what each slot by itself gives**;
* `putBackFrom_map` — units that are put back go to the slots that they were picked from;
* `Registry.selected_slots` — **the units that numbers pick, and the slots that they stand in**.
-/

import JavaOutline.Rebuild

set_option autoImplicit false

namespace JavaOutline

/-! ### Numbers in order -/

namespace Registry

theorem mem_insertInOrder {number other : Nat} {numbers : List Nat} :
    other ∈ insertInOrder number numbers ↔ other = number ∨ other ∈ numbers := by
  induction numbers with
  | nil => simp [insertInOrder]
  | cons first rest ih =>
      unfold insertInOrder
      split
      · exact List.mem_cons
      · rw [List.mem_cons, ih, List.mem_cons, or_left_comm]

theorem mem_inOrder {number : Nat} {numbers : List Nat} :
    number ∈ inOrder numbers ↔ number ∈ numbers := by
  induction numbers with
  | nil => rfl
  | cons first rest ih =>
      rw [List.mem_cons, ← ih]
      exact mem_insertInOrder

theorem pairwise_insertInOrder {number : Nat} {numbers : List Nat}
    (h : numbers.Pairwise (· ≤ ·)) : (insertInOrder number numbers).Pairwise (· ≤ ·) := by
  induction numbers with
  | nil => exact List.pairwise_singleton _ _
  | cons first rest ih =>
      obtain ⟨hfirst, hrest⟩ := List.pairwise_cons.1 h
      unfold insertInOrder
      split
      next hle =>
        refine List.pairwise_cons.2 ⟨fun other hother => ?_, h⟩
        rcases List.mem_cons.1 hother with rfl | hlater
        · exact hle
        · exact Nat.le_trans hle (hfirst other hlater)
      next hlt =>
        refine List.pairwise_cons.2 ⟨fun other hother => ?_, ih hrest⟩
        rcases mem_insertInOrder.1 hother with rfl | hlater
        · omega
        · exact hfirst other hlater

/-- The numbers are put in order. -/
theorem pairwise_inOrder (numbers : List Nat) : (inOrder numbers).Pairwise (· ≤ ·) := by
  induction numbers with
  | nil => exact .nil
  | cons first rest ih => exact pairwise_insertInOrder ih

theorem mem_withoutRepeats {number : Nat} {numbers : List Nat} :
    number ∈ withoutRepeats numbers ↔ number ∈ numbers := by
  fun_induction withoutRepeats numbers with
  | case1 => rfl
  | case2 => rfl
  | case3 first rest ih => simp [ih]
  | case4 first second rest hne ih => rw [List.mem_cons, ih, List.mem_cons (b := first)]

/-- Without their repeats, numbers in order ascend. -/
theorem pairwise_withoutRepeats {numbers : List Nat} (h : numbers.Pairwise (· ≤ ·)) :
    (withoutRepeats numbers).Pairwise (· < ·) := by
  fun_induction withoutRepeats numbers with
  | case1 => exact .nil
  | case2 number => exact List.pairwise_singleton _ _
  | case3 first rest ih => exact ih (List.pairwise_cons.1 h).2
  | case4 first second rest hne ih =>
      obtain ⟨hfirst, hrest⟩ := List.pairwise_cons.1 h
      refine List.pairwise_cons.2 ⟨fun other hother => ?_, ih hrest⟩
      have hsecond : first < second := Nat.lt_of_le_of_ne (hfirst second List.mem_cons_self) hne
      rcases List.mem_cons.1 (mem_withoutRepeats.1 hother) with rfl | hlater
      · exact hsecond
      · exact Nat.lt_of_lt_of_le hsecond ((List.pairwise_cons.1 hrest).1 other hlater)

end Registry

/-! ### Each slot by itself -/

/-- The units in slots that are picked by number, the first slot having a number. -/
def pickFrom (numbers : List Nat) (index : Nat) (slots : List (Option CompilationUnit)) :
    List CompilationUnit :=
  ((slots.zipIdx index).filter fun slot => numbers.contains slot.2).filterMap Prod.fst

theorem pickFrom_cons (numbers : List Nat) (index : Nat) (slot : Option CompilationUnit)
    (slots : List (Option CompilationUnit)) :
    pickFrom numbers index (slot :: slots) =
      (if index ∈ numbers then slot.toList else []) ++ pickFrom numbers (index + 1) slots := by
  unfold pickFrom
  by_cases h : index ∈ numbers
  · cases slot <;> simp [h]
  · simp [h]

/-- A number in front of all slots picks nothing. -/
theorem pickFrom_skip {numbers : List Nat} {index number : Nat}
    {slots : List (Option CompilationUnit)} (h : number < index) :
    pickFrom (number :: numbers) index slots = pickFrom numbers index slots := by
  induction slots generalizing index with
  | nil => rfl
  | cons slot slots ih =>
      have hne : index ≠ number := by omega
      rw [pickFrom_cons, pickFrom_cons, ih (by omega)]
      simp [hne]

/-- The same numbers pick the same units. -/
theorem pickFrom_congr {numbers others : List Nat} (h : ∀ number, number ∈ numbers ↔ number ∈ others)
    (index : Nat) (slots : List (Option CompilationUnit)) :
    pickFrom numbers index slots = pickFrom others index slots := by
  induction slots generalizing index with
  | nil => rfl
  | cons slot slots ih => simp only [pickFrom_cons, h, ih]

/-- The slots that give their units, with their numbers. -/
def givingFrom (numbers : List Nat) (index : Nat) (slots : List (Option CompilationUnit)) :
    List (Option CompilationUnit × Nat) :=
  (slots.zipIdx index).filter fun slot => numbers.contains slot.2 && slot.1.isSome

/-- The units that are picked stand in the slots that give them. -/
theorem map_some_pickFrom (numbers : List Nat) (index : Nat)
    (slots : List (Option CompilationUnit)) :
    (pickFrom numbers index slots).map some = (givingFrom numbers index slots).map Prod.fst := by
  induction slots generalizing index with
  | nil => rfl
  | cons slot slots ih =>
      rw [pickFrom_cons, List.map_append, ih, givingFrom, givingFrom, List.zipIdx_cons]
      by_cases h : index ∈ numbers <;> cases slot <;> simp [h]

/-- The numbers of the slots that give their units ascend. -/
theorem pairwise_givingFrom (numbers : List Nat) (index : Nat)
    (slots : List (Option CompilationUnit)) :
    ((givingFrom numbers index slots).map Prod.snd).Pairwise (· < ·) := by
  have hall : ((slots.zipIdx index).map Prod.snd).Pairwise (· < ·) := by
    rw [List.zipIdx_map_snd]
    exact List.pairwise_lt_range'
  exact List.pairwise_map.2 ((List.pairwise_map.1 hall).filter _)

/-- Which slots give their units. -/
theorem mem_givingFrom {numbers : List Nat} {slots : List (Option CompilationUnit)} {index : Nat} :
    index ∈ (givingFrom numbers 0 slots).map Prod.snd ↔
      index ∈ numbers ∧ ∃ unit, slots[index]? = some (some unit) := by
  constructor
  · intro h
    obtain ⟨⟨slot, place⟩, hslot, rfl⟩ := List.mem_map.1 h
    obtain ⟨hplace, hgives⟩ := List.mem_filter.1 hslot
    obtain ⟨hwanted, hunit⟩ := Bool.and_eq_true_iff.1 hgives
    obtain ⟨unit, rfl⟩ := Option.isSome_iff_exists.1 hunit
    exact ⟨List.contains_iff_mem.1 hwanted, unit, List.mem_zipIdx_iff_getElem?.1 hplace⟩
  · rintro ⟨hwanted, unit, hunit⟩
    refine List.mem_map.2 ⟨(some unit, index), List.mem_filter.2 ⟨?_, ?_⟩, rfl⟩
    · exact List.mem_zipIdx_iff_getElem?.2 hunit
    · simpa using hwanted

/-! ### The walk -/

/-- **The walk finds what each slot by itself gives**, if the wanted numbers ascend and none of them is
behind it. -/
theorem Registry.walkSlots_eq {index : Nat} {slots : List (Option CompilationUnit)}
    {wanted : List Nat} (hascending : wanted.Pairwise (· < ·))
    (hahead : ∀ number ∈ wanted, index ≤ number) :
    walkSlots index slots wanted = pickFrom wanted index slots := by
  induction slots generalizing index wanted with
  | nil => rfl
  | cons slot slots ih =>
      rw [walkSlots, pickFrom_cons]
      split
      next hhead =>
        obtain ⟨later, rfl⟩ := List.head?_eq_some_iff.1 hhead
        obtain ⟨hlater, hrest⟩ := List.pairwise_cons.1 hascending
        rw [if_pos List.mem_cons_self, List.tail_cons, ih hrest hlater,
          pickFrom_skip (Nat.lt_succ_self index)]
      next hhead =>
        -- The number of this slot is not the first one, and so it is not wanted at all.
        have hunwanted : index ∉ wanted := by
          intro hwanted
          cases wanted with
          | nil => cases hwanted
          | cons first later =>
              have hle := hahead first List.mem_cons_self
              rcases List.mem_cons.1 hwanted with rfl | hlater
              · exact hhead rfl
              · have hlt := (List.pairwise_cons.1 hascending).1 index hlater
                omega
        have hahead' : ∀ number ∈ wanted, index + 1 ≤ number := fun number hnumber =>
          Nat.lt_of_le_of_ne (hahead number hnumber) fun heq => hunwanted (heq ▸ hnumber)
        rw [if_neg hunwanted, List.nil_append, ih hascending hahead']

/-- The units that numbers pick are those in the slots with these numbers. -/
theorem Registry.selected_eq_pickFrom (registry : Registry) (ordinals : List Nat) :
    registry.selected ordinals = pickFrom ordinals 0 registry.slots := by
  have hmem (number : Nat) : number ∈ withoutRepeats (inOrder ordinals) ↔ number ∈ ordinals := by
    rw [mem_withoutRepeats, mem_inOrder]
  rw [selected, walkSlots_eq (pairwise_withoutRepeats (pairwise_inOrder ordinals))
    fun _ _ => Nat.zero_le _, pickFrom_congr hmem]

/-! ### Putting units back -/

/-- **Units that are put back go to the slots that they were picked from.** -/
theorem Registry.putBackFrom_map (ordinals : List Nat) (change : CompilationUnit → CompilationUnit)
    (index : Nat) (slots : List (Option CompilationUnit)) :
    putBackFrom ordinals index slots ((pickFrom ordinals index slots).map change) =
      (slots.zipIdx index).map fun slot =>
        if slot.2 ∈ ordinals then slot.1.map change else slot.1 := by
  induction slots generalizing index with
  | nil => rfl
  | cons slot slots ih =>
      rw [pickFrom_cons, List.zipIdx_cons, List.map_cons, ← ih]
      cases slot with
      | none => simp [putBackFrom]
      | some unit => by_cases h : index ∈ ordinals <;> simp [putBackFrom, h]

/-! ### The units that numbers pick -/

/-- **The units that numbers pick, and the slots that they stand in.**  The slots are those with one of
the numbers that are not empty, in ascending order and each once.  They are the slots of the registry
itself: units that are changed and put back are changed there, and nowhere else. -/
theorem Registry.selected_slots (registry : Registry) (ordinals : List Nat) :
    ∃ places : List Nat, places.Pairwise (· < ·) ∧
      (∀ index, index ∈ places ↔
        index < registry.size ∧ index ∈ ordinals ∧ ∃ unit, registry.get? index = some unit) ∧
      (registry.selected ordinals).map some = places.map registry.get? ∧
      ∀ (change : CompilationUnit → CompilationUnit) (index : Nat),
        (registry.putBack ordinals ((registry.selected ordinals).map change)).get? index =
          if index ∈ places then (registry.get? index).map change else registry.get? index := by
  have hget (index : Nat) (unit : CompilationUnit) :
      registry.get? index = some unit ↔ registry.slots[index]? = some (some unit) :=
    Option.join_eq_some_iff
  refine ⟨(givingFrom ordinals 0 registry.slots).map Prod.snd, pairwise_givingFrom _ _ _,
    fun index => ?_, ?_, fun change index => ?_⟩
  · rw [mem_givingFrom]
    simp only [hget]
    refine ⟨fun ⟨hwanted, unit, hunit⟩ => ⟨?_, hwanted, unit, hunit⟩, fun h => h.2⟩
    exact (List.getElem?_eq_some_iff.1 hunit).1
  · rw [selected_eq_pickFrom, map_some_pickFrom, List.map_map]
    refine List.map_congr_left fun slot hslot => ?_
    have hplace := List.mem_zipIdx_iff_getElem?.1 (List.mem_filter.1 hslot).1
    simp [get?, hplace]
  · have hslots : (registry.putBack ordinals ((registry.selected ordinals).map change)).slots =
        (registry.slots.zipIdx).map fun slot =>
          if slot.2 ∈ ordinals then slot.1.map change else slot.1 := by
      rw [selected_eq_pickFrom]
      exact putBackFrom_map ordinals change 0 registry.slots
    have hput : (registry.putBack ordinals ((registry.selected ordinals).map change)).get? index =
        ((registry.slots[index]?).map fun slot =>
          if index ∈ ordinals then slot.map change else slot).join := by
      rw [get?, hslots, List.getElem?_map, List.getElem?_zipIdx, Option.map_map, Nat.zero_add]
      rfl
    rw [hput, get?]
    by_cases hplace : index ∈ (givingFrom ordinals 0 registry.slots).map Prod.snd
    · rw [if_pos hplace]
      obtain ⟨hwanted, unit, hunit⟩ := mem_givingFrom.1 hplace
      simp [hunit, hwanted]
    · rw [if_neg hplace]
      -- Either the number is not wanted, or its slot is empty.
      rw [mem_givingFrom, not_and] at hplace
      cases hslot : registry.slots[index]? with
      | none => rfl
      | some slot =>
          cases slot with
          | none => simp
          | some unit =>
              have hunwanted : index ∉ ordinals := fun hwanted => hplace hwanted ⟨unit, hslot⟩
              simp [hunwanted]

end JavaOutline
