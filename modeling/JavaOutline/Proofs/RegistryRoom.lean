/-
**The slots of a registry and the room for them.**

A registry gives its units the slots from the first one on, and doubles its room when all slots are
used.  Whatever is added and taken, in any order, the slots are known from the list of these changes:
a slot holds the unit that was added there unless that unit was taken, the slots behind are empty, and
the room is the smallest that doubling makes of the room set aside at first.  To take from a slot that
no unit was given yet does nothing.

Main definitions:

* `Registry.Change`, `Registry.changeAll` — what can be done to a registry, and doing it in order;
* `Registry.row` — the slots that there is room for, the unused ones included;
* `Registry.addedUnits`, `Registry.TakenBack` — what the changes say: the units that were added, and
  which of them were taken;
* `Registry.Reflects` — a registry is as the changes say.

Main results:

* `Registry.row_add`, `Registry.row_take` — the row is filled from the left, and grows when it is full;
* `Registry.doubledRoom_succ` — the smallest room that holds one more unit;
* `Registry.Reflects.change` — what one change keeps;
* `Registry.changeAll_slots` — **slots and room after any changes**.
-/

import Mathlib.Algebra.Group.Nat.Defs
import Mathlib.Data.List.Induction
import Mathlib.Order.Bounds.Basic
import JavaOutline.Registry

set_option autoImplicit false

namespace JavaOutline

namespace Registry

/-! ### Changes -/

/-- What can be done to a registry. -/
inductive Change where
  | add (unit : CompilationUnit)
  | take (index : Nat)
deriving DecidableEq

/-- The unit that a change adds. -/
def Change.added? : Change → Option CompilationUnit
  | .add unit => some unit
  | .take _ => none

/-- What a change is answered with. -/
inductive Answer where
  /-- Where a unit was added. -/
  | placed (ordinal : Option Nat)
  /-- What was taken. -/
  | taken (unit : Option CompilationUnit)
deriving DecidableEq

/-- The answer to adding a unit. -/
def Answer.ordinal? : Answer → Option (Option Nat)
  | .placed ordinal => some ordinal
  | .taken _ => none

/-- Makes a change. -/
def change (registry : Registry) : Change → Answer × Registry
  | .add unit => (.placed (registry.add unit).1, (registry.add unit).2)
  | .take index => (.taken (registry.take index).1, (registry.take index).2)

/-- Makes changes in order, and gives the answers to them. -/
def changeAll (start : Registry) (changes : List Change) : List Answer × Registry :=
  changes.foldl (fun done next => (done.1 ++ [(done.2.change next).1], (done.2.change next).2))
    ([], start)

theorem changeAll_concat (start : Registry) (changes : List Change) (next : Change) :
    start.changeAll (changes ++ [next]) =
      ((start.changeAll changes).1 ++ [((start.changeAll changes).2.change next).1],
        ((start.changeAll changes).2.change next).2) := by
  simp only [changeAll, List.foldl_append, List.foldl_cons, List.foldl_nil]

/-! ### What the changes say -/

/-- The units that are added, in order. -/
def addedUnits (changes : List Change) : List CompilationUnit := changes.filterMap Change.added?

/-- The unit that is added to a slot is taken from it: at some time when the slot has its unit, the
slot is taken. -/
def TakenBack (changes : List Change) (index : Nat) : Prop :=
  ∃ earlier later, changes = earlier ++ .take index :: later ∧ index < (addedUnits earlier).length

section

variable {changes : List Change} {index : Nat}

theorem length_addedUnits_add (changes : List Change) (unit : CompilationUnit) :
    (addedUnits (changes ++ [.add unit])).length = (addedUnits changes).length + 1 := by
  simp [addedUnits, Change.added?]

theorem addedUnits_take (changes : List Change) (index : Nat) :
    addedUnits (changes ++ [.take index]) = addedUnits changes := by
  simp [addedUnits, Change.added?]

/-- Only a unit that was added is taken. -/
theorem TakenBack.lt_length (h : TakenBack changes index) : index < (addedUnits changes).length := by
  obtain ⟨earlier, later, rfl, hlt⟩ := h
  simp only [addedUnits, List.filterMap_append, List.length_append] at hlt ⊢
  omega

/-- When a unit is taken, seen from the last change. -/
theorem takenBack_concat (next : Change) :
    TakenBack (changes ++ [next]) index ↔
      TakenBack changes index ∨ next = .take index ∧ index < (addedUnits changes).length := by
  constructor
  · rintro ⟨earlier, later, hsplit, hlt⟩
    rcases List.eq_nil_or_concat later with rfl | ⟨front, last, rfl⟩
    · obtain ⟨rfl, hnext⟩ := List.append_inj' hsplit rfl
      exact .inr ⟨(List.cons.inj hnext).1, hlt⟩
    · rw [List.concat_eq_append, ← List.cons_append, ← List.append_assoc] at hsplit
      exact .inl ⟨earlier, front, (List.append_inj' hsplit rfl).1, hlt⟩
  · rintro (⟨earlier, later, rfl, hlt⟩ | ⟨rfl, hlt⟩)
    · exact ⟨earlier, later ++ [next], by simp, hlt⟩
    · exact ⟨changes, [], rfl, hlt⟩

theorem takenBack_add (unit : CompilationUnit) :
    TakenBack (changes ++ [.add unit]) index ↔ TakenBack changes index := by
  simp [takenBack_concat]

end

/-! ### The row of slots -/

theorem le_roomier (size capacity : Nat) : capacity ≤ roomier size capacity := by
  unfold roomier
  split
  · split <;> omega
  · exact Nat.le_refl _

/-- There is room for one more unit. -/
theorem lt_roomier {size capacity : Nat} (h : size ≤ capacity) : size < roomier size capacity := by
  unfold roomier
  split
  · split <;> omega
  · omega

/-- The slots that there is room for: those that were used, and empty ones behind them. -/
def row (registry : Registry) : List (Option CompilationUnit) :=
  registry.slots ++ List.replicate (registry.capacity - registry.size) none

/-- A row with a free slot: if so many slots are used that none is free, then the row is doubled, and
an empty row gets one slot. -/
def grownRow (used : Nat) (slots : List (Option CompilationUnit)) : List (Option CompilationUnit) :=
  if used = slots.length then slots ++ List.replicate (if slots.length = 0 then 1 else slots.length) none
  else slots

section

variable {registry : Registry}

/-- The row is as long as there is room. -/
theorem length_row (h : registry.size ≤ registry.capacity) :
    registry.row.length = registry.capacity := by
  simp only [row, List.length_append, List.length_replicate]
  simp only [size] at h ⊢
  omega

/-- The unit in a slot is the one in the row. -/
theorem get?_eq_row (registry : Registry) (index : Nat) :
    registry.get? index = (registry.row[index]?).join := by
  unfold get? row
  rcases Nat.lt_or_ge index registry.slots.length with hlt | hge
  · rw [List.getElem?_append_left hlt]
  · rw [List.getElem?_append_right hge, List.getElem?_eq_none hge, List.getElem?_replicate]
    split <;> rfl

/-- A free slot is a slot that the row has, or an empty one. -/
theorem getElem?_grownRow {used index : Nat} {slots : List (Option CompilationUnit)}
    (h : index < (grownRow used slots).length) :
    (grownRow used slots)[index]? = if index < slots.length then slots[index]? else some none := by
  unfold grownRow at h ⊢
  by_cases hused : used = slots.length
  · rw [if_pos hused, List.length_append, List.length_replicate] at h
    rw [if_pos hused]
    by_cases hlt : index < slots.length
    · rw [if_pos hlt, List.getElem?_append_left hlt]
    · rw [if_neg hlt, List.getElem?_append_right (Nat.le_of_not_lt hlt), List.getElem?_replicate,
        if_pos (by omega)]
  · rw [if_neg hused] at h
    rw [if_neg hused, if_pos h]

/-- **A unit is put into the first free slot of the row, which grows if there is none.** -/
theorem row_add (hcollecting : registry.collecting = true) (h : registry.size ≤ registry.capacity)
    (unit : CompilationUnit) :
    (registry.add unit).2.row =
      (grownRow registry.size registry.row).set registry.size
        (some { unit with ordinal := registry.size }) := by
  have hgrown : grownRow registry.size registry.row =
      registry.slots ++
        List.replicate (roomier registry.size registry.capacity - registry.size) none := by
    unfold grownRow roomier
    rw [length_row h]
    split
    · rename_i hsize
      rw [row, hsize, Nat.sub_self, List.replicate_zero, List.append_nil]
      congr 2
      split <;> omega
    · rfl
  have hroom : registry.size < roomier registry.size registry.capacity := lt_roomier h
  obtain ⟨free, hfree⟩ : ∃ free, roomier registry.size registry.capacity - registry.size = free + 1 :=
    ⟨roomier registry.size registry.capacity - registry.size - 1, by omega⟩
  have hbehind : roomier registry.size registry.capacity - (registry.size + 1) = free := by omega
  rw [hgrown, hfree, List.replicate_succ]
  simp only [add, hcollecting, if_true, row]
  simp only [size, List.length_append, List.length_singleton] at hbehind ⊢
  rw [hbehind, List.set_append_right _ _ (Nat.le_refl _), Nat.sub_self, List.set_cons_zero,
    List.append_assoc, List.singleton_append]

/-- **Taking from a slot empties it in the row.** -/
theorem row_take (registry : Registry) (index : Nat) :
    (registry.take index).2.row = registry.row.set index none := by
  simp only [take, row, size, List.modify_eq_set, List.length_set]
  rcases Nat.lt_or_ge index registry.slots.length with hlt | hge
  · rw [List.set_append_left _ _ hlt]
  · rw [List.set_append_right _ _ hge, List.set_replicate_self, List.set_eq_of_length_le hge]

end

/-! ### The room -/

/-- The rooms that doubling makes of a room that is set aside, which is made one slot if there is
none, as far as so many units fit. -/
def doubledRooms (capacity count : Nat) : Set Nat :=
  {room | (∃ k, room = max capacity 1 * 2 ^ k) ∧ count ≤ room ∧ max capacity 1 ≤ room}

/-- The room of a registry with so many units: before the first one it is what was set aside. -/
structure RoomFor (capacity count room : Nat) : Prop where
  unused : count = 0 → room = capacity
  used : 1 ≤ count → IsLeast (doubledRooms capacity count) room

section

variable {capacity count room : Nat}

theorem RoomFor.count_le (h : RoomFor capacity count room) : count ≤ room := by
  rcases Nat.eq_zero_or_pos count with rfl | hpos
  · exact Nat.zero_le _
  · exact (h.used hpos).1.2.1

/-- The first unit makes the room one slot if there is none. -/
theorem doubledRoom_one (capacity : Nat) :
    IsLeast (doubledRooms capacity 1) (roomier 0 capacity) := by
  have hroom : roomier 0 capacity = max capacity 1 := by
    unfold roomier
    split
    · rename_i hzero
      rw [← hzero]
      rfl
    · omega
  rw [hroom]
  refine ⟨⟨⟨0, by simp⟩, by omega, Nat.le_refl _⟩, ?_⟩
  intro other hother
  exact hother.2.2

/-- **The smallest room that holds one more unit**: the same one, or its double if it is full. -/
theorem doubledRoom_succ (h : IsLeast (doubledRooms capacity count) room) :
    IsLeast (doubledRooms capacity (count + 1)) (roomier count room) := by
  obtain ⟨⟨⟨k, hk⟩, hcount, hmax⟩, hleast⟩ := h
  have hdouble : 2 * room = max capacity 1 * 2 ^ (k + 1) := by
    rw [hk, Nat.pow_succ, Nat.mul_comm 2, Nat.mul_assoc]
  unfold roomier
  split
  · rename_i hfull
    rw [if_neg (by omega)]
    refine ⟨⟨⟨k + 1, hdouble⟩, by omega, by omega⟩, ?_⟩
    -- a larger power than the one that is full is its double at least
    rintro other ⟨⟨j, rfl⟩, hmore, -⟩
    have hlt : max capacity 1 * 2 ^ k < max capacity 1 * 2 ^ j := by omega
    have hkj : k < j := (Nat.pow_lt_pow_iff_right (by omega)).1 (Nat.lt_of_mul_lt_mul_left hlt)
    calc 2 * room = max capacity 1 * 2 ^ (k + 1) := hdouble
      _ ≤ max capacity 1 * 2 ^ j := Nat.mul_le_mul_left _ (Nat.pow_le_pow_right (by omega) hkj)
  · rename_i hfree
    refine ⟨⟨⟨k, hk⟩, by omega, hmax⟩, ?_⟩
    rintro other ⟨hdoubled, hmore, hother⟩
    exact hleast ⟨hdoubled, by omega, hother⟩

theorem RoomFor.succ (h : RoomFor capacity count room) :
    RoomFor capacity (count + 1) (roomier count room) where
  unused hzero := by omega
  used _ := by
    rcases Nat.eq_zero_or_pos count with rfl | hpos
    · rw [h.unused rfl]
      exact doubledRoom_one capacity
    · exact doubledRoom_succ (h.used hpos)

end

/-! ### Registries after changes -/

/-- A registry is as the changes say that were made to the empty one. -/
structure Reflects (capacity : Nat) (changes : List Change) (registry : Registry) : Prop where
  collecting : registry.collecting = true
  size : registry.size = (addedUnits changes).length
  room : RoomFor capacity (addedUnits changes).length registry.capacity
  /-- A unit that was not taken stands in its slot. -/
  held : ∀ index unit, (addedUnits changes)[index]? = some unit → ¬ TakenBack changes index →
    registry.row[index]? = some (some { unit with ordinal := index })
  /-- The other slots are empty. -/
  empty : ∀ index, index < registry.capacity →
    (addedUnits changes).length ≤ index ∨ TakenBack changes index → registry.row[index]? = some none

section

variable {capacity : Nat} {changes : List Change} {registry : Registry}

theorem Reflects.size_le (h : Reflects capacity changes registry) :
    registry.size ≤ registry.capacity := by
  rw [h.size]
  exact h.room.count_le

/-- The empty registry. -/
theorem reflects_ofCapacity (capacity : Nat) : Reflects capacity [] (ofCapacity capacity) where
  collecting := rfl
  size := rfl
  room := ⟨fun _ => rfl, fun h => absurd h (by simp [addedUnits])⟩
  held := by simp [addedUnits]
  empty := by
    intro index hroom _
    have hlt : index < capacity := hroom
    simp [row, ofCapacity, Registry.size, hlt]

/-- Adding a unit. -/
theorem Reflects.add (h : Reflects capacity changes registry) (unit : CompilationUnit) :
    Reflects capacity (changes ++ [.add unit]) (registry.add unit).2 := by
  have hcapacity : (registry.add unit).2.capacity = roomier registry.size registry.capacity := by
    simp [Registry.add, h.collecting]
  have hsize : (registry.add unit).2.size = registry.size + 1 := by
    simp [Registry.add, h.collecting, Registry.size]
  have hroom : RoomFor capacity (addedUnits (changes ++ [.add unit])).length
      (registry.add unit).2.capacity := by
    rw [length_addedUnits_add, hcapacity, h.size]
    exact h.room.succ
  have hslot : registry.size < (registry.add unit).2.capacity := hcapacity ▸ lt_roomier h.size_le
  have hlength : (registry.add unit).2.row.length = (registry.add unit).2.capacity :=
    length_row (hsize ▸ hslot)
  -- what the new row holds in a slot, by the side on which the slot lies of the new unit
  have hnew : (registry.add unit).2.row[registry.size]? =
      some (some { unit with ordinal := registry.size }) := by
    have hlt : registry.size < (registry.add unit).2.row.length := hlength ▸ hslot
    rw [row_add h.collecting h.size_le] at hlt ⊢
    rw [List.getElem?_set_self (by simpa using hlt)]
  have hother {index : Nat} (hne : index ≠ registry.size) (hlt : index < (registry.add unit).2.capacity) :
      (registry.add unit).2.row[index]? =
        if index < registry.capacity then registry.row[index]? else some none := by
    rw [← hlength, row_add h.collecting h.size_le, List.length_set] at hlt
    rw [row_add h.collecting h.size_le, List.getElem?_set_ne (Ne.symm hne), getElem?_grownRow hlt,
      length_row h.size_le]
  refine ⟨by simp [Registry.add, h.collecting], ?_, hroom, ?_, ?_⟩
  · rw [hsize, length_addedUnits_add, h.size]
  · intro index found hfound htaken
    rw [takenBack_add] at htaken
    rw [addedUnits, List.filterMap_append, ← addedUnits] at hfound
    rcases Nat.lt_or_ge index registry.size with hlt | hge
    · rw [List.getElem?_append_left (h.size ▸ hlt)] at hfound
      have hold : index < registry.capacity := Nat.lt_of_lt_of_le hlt h.size_le
      rw [hother (by omega) (Nat.lt_trans hlt hslot), if_pos hold]
      exact h.held index found hfound htaken
    · rw [List.getElem?_append_right (h.size ▸ hge), ← h.size] at hfound
      have hfirst : index - registry.size = 0 ∧ unit = found := by
        simpa [Change.added?, List.getElem?_singleton] using hfound
      obtain rfl : index = registry.size := by omega
      rw [hnew, hfirst.2]
  · intro index hlt hempty
    rw [length_addedUnits_add, takenBack_add, ← h.size] at hempty
    have hne : index ≠ registry.size := by
      rcases hempty with hbehind | htaken
      · omega
      · have htaken := htaken.lt_length
        rw [← h.size] at htaken
        omega
    rw [hother hne hlt]
    split
    · rename_i hold
      refine h.empty index hold (hempty.imp_left ?_)
      intro hbehind
      rw [← h.size]
      omega
    · rfl

/-- Taking from a slot. -/
theorem Reflects.take (h : Reflects capacity changes registry) (place : Nat) :
    Reflects capacity (changes ++ [.take place]) (registry.take place).2 := by
  have hsize : (registry.take place).2.size = registry.size := by
    simp [Registry.take, Registry.size]
  have hcapacity : (registry.take place).2.capacity = registry.capacity := rfl
  refine ⟨h.collecting, ?_, ?_, ?_, ?_⟩
  · rw [hsize, addedUnits_take, h.size]
  · rw [addedUnits_take, hcapacity]
    exact h.room
  · intro index unit hunit htaken
    rw [addedUnits_take] at hunit
    rw [takenBack_concat, not_or] at htaken
    have hne : place ≠ index := by
      rintro rfl
      exact htaken.2 ⟨rfl, (List.getElem?_eq_some_iff.1 hunit).1⟩
    rw [row_take, List.getElem?_set_ne hne]
    exact h.held index unit hunit htaken.1
  · intro index hlt hempty
    rw [hcapacity] at hlt
    rw [addedUnits_take, takenBack_concat] at hempty
    rw [row_take]
    by_cases hplace : place = index
    · rw [hplace, List.getElem?_set_self (by rw [length_row h.size_le]; exact hlt)]
    · rw [List.getElem?_set_ne hplace]
      refine h.empty index hlt ?_
      rcases hempty with hbehind | htaken | ⟨hnext, -⟩
      · exact .inl hbehind
      · exact .inr htaken
      · exact absurd (Change.take.inj hnext) hplace

/-- **What one change keeps.** -/
theorem Reflects.change (h : Reflects capacity changes registry) (next : Change) :
    Reflects capacity (changes ++ [next]) (registry.change next).2 := by
  cases next with
  | add unit => exact h.add unit
  | take place => exact h.take place

/-- What all changes keep. -/
theorem changeAll_reflects (capacity : Nat) (changes : List Change) :
    Reflects capacity changes ((ofCapacity capacity).changeAll changes).2 := by
  induction changes using List.reverseRecOn with
  | nil => exact reflects_ofCapacity capacity
  | append_singleton changes next ih =>
      rw [changeAll_concat]
      exact ih.change next

/-- Units are added at the places from the first one on. -/
theorem changeAll_ordinals (capacity : Nat) (changes : List Change) :
    ((ofCapacity capacity).changeAll changes).1.filterMap Answer.ordinal? =
      (List.range (addedUnits changes).length).map some := by
  induction changes using List.reverseRecOn with
  | nil => rfl
  | append_singleton changes next ih =>
      have hbefore := changeAll_reflects capacity changes
      rw [changeAll_concat, List.filterMap_append, ih]
      cases next with
      | add unit =>
          rw [length_addedUnits_add, List.range_succ, List.map_append]
          simp [Registry.change, Answer.ordinal?, Registry.add, hbefore.collecting, hbefore.size]
      | take index =>
          rw [addedUnits_take]
          simp [Registry.change, Answer.ordinal?]

/-- No change takes room away. -/
theorem capacity_le_change (registry : Registry) (next : Change) :
    registry.capacity ≤ (registry.change next).2.capacity := by
  cases next with
  | take index => exact Nat.le_refl _
  | add unit =>
      simp only [Registry.change, Registry.add]
      split
      · exact le_roomier _ _
      · exact Nat.le_refl _

theorem capacity_le_changeAll (start : Registry) (changes more : List Change) :
    (start.changeAll changes).2.capacity ≤ (start.changeAll (changes ++ more)).2.capacity := by
  induction more using List.reverseRecOn with
  | nil => rw [List.append_nil]
  | append_singleton more next ih =>
      rw [← List.append_assoc, changeAll_concat]
      exact Nat.le_trans ih (capacity_le_change _ next)

/-- **Slots and room after any changes.**  Units are numbered in the order in which they are added.  A
slot holds the unit with its number, and is empty exactly if that unit was taken; all slots behind are
empty.  The room is the smallest doubling of the room at first that holds the units, and never
shrinks. -/
theorem changeAll_slots (capacity : Nat) (changes : List Change) :
    let units := addedUnits changes
    let registry := ((ofCapacity capacity).changeAll changes).2
    registry.size = units.length ∧
    ((ofCapacity capacity).changeAll changes).1.filterMap Answer.ordinal? =
      (List.range units.length).map some ∧
    (∀ index unit, units[index]? = some unit →
      (registry.get? index = none ↔ TakenBack changes index) ∧
      (¬ TakenBack changes index → registry.get? index = some { unit with ordinal := index })) ∧
    (∀ index, units.length ≤ index → registry.get? index = none) ∧
    registry.row.length = registry.capacity ∧
    (∀ index, units.length ≤ index → index < registry.capacity → registry.row[index]? = some none) ∧
    (units.length = 0 → registry.capacity = capacity) ∧
    (1 ≤ units.length →
      IsLeast {room | (∃ k, room = max capacity 1 * 2 ^ k) ∧ units.length ≤ room ∧ max capacity 1 ≤ room}
        registry.capacity) ∧
    ∀ more, registry.capacity ≤ ((ofCapacity capacity).changeAll (changes ++ more)).2.capacity := by
  intro units registry
  have h : Reflects capacity changes registry := changeAll_reflects capacity changes
  have hheld {index : Nat} {unit : CompilationUnit} (hunit : units[index]? = some unit)
      (htaken : ¬ TakenBack changes index) :
      registry.get? index = some { unit with ordinal := index } := by
    rw [get?_eq_row, h.held index unit hunit htaken]
    rfl
  have hempty {index : Nat} (hslot : units.length ≤ index ∨ TakenBack changes index) :
      registry.get? index = none := by
    rw [get?_eq_row]
    rcases Nat.lt_or_ge index registry.capacity with hlt | hge
    · rw [h.empty index hlt hslot]
      rfl
    · rw [List.getElem?_eq_none (by rw [length_row h.size_le]; exact hge)]
      rfl
  refine ⟨h.size, changeAll_ordinals capacity changes, ?_, ?_, length_row h.size_le, ?_, h.room.unused,
    h.room.used, capacity_le_changeAll _ changes⟩
  · intro index unit hunit
    refine ⟨⟨?_, fun htaken => hempty (.inr htaken)⟩, hheld hunit⟩
    intro hnone
    by_contra htaken
    rw [hheld hunit htaken] at hnone
    cases hnone
  · intro index hbehind
    exact hempty (.inl hbehind)
  · intro index hbehind hlt
    exact h.empty index hlt (.inl hbehind)

end

end Registry

end JavaOutline
