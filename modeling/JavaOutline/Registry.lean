/-
**The registry of a batch.**

The units of a batch stand in numbered slots, in the order in which they were added.  A unit can be
taken out of its slot, which then stays empty.  A registry may also be told to collect nothing.

Main definitions:

* `Registry` — the slots, and the room that is set aside for them;
* `Registry.add`, `Registry.take`, `Registry.modify` — changing it;
* `Registry.get?`, `Registry.units`, `Registry.selected` — reading it.

Main results:

* `Registry.get?_add_new`, `Registry.get?_add_old` — a unit is added behind the others;
* `Registry.size_le_capacity_add` — the slots always fit the room.
-/

import JavaOutline.CompilationUnit

set_option autoImplicit false

namespace JavaOutline

/-- The units of a batch. -/
structure Registry where
  /-- The slots in order; an empty slot held a unit once. -/
  slots : List (Option CompilationUnit) := []
  /-- How many slots there is room for. -/
  capacity : Nat := 0
  /-- Whether units are collected at all. -/
  collecting : Bool := true
deriving DecidableEq

namespace Registry

/-! ### Registries -/

/-- The empty registry with room for a number of units. -/
def ofCapacity (capacity : Nat) : Registry where
  capacity := capacity

/-- The registry that collects nothing. -/
def idle : Registry where
  collecting := false

/-- The number of slots. -/
def size (registry : Registry) : Nat := registry.slots.length

/-- Whether no unit was ever added. -/
def isEmpty (registry : Registry) : Bool := registry.slots.isEmpty

/-- The room after one more unit: it is doubled when it is full. -/
def roomier (size capacity : Nat) : Nat :=
  if size = capacity then (if capacity = 0 then 1 else 2 * capacity) else capacity

/-! ### Changing -/

/-- Adds a unit behind the others, and says where. -/
def add (registry : Registry) (unit : CompilationUnit) : Option Nat × Registry :=
  if registry.collecting then
    (some registry.size,
      { registry with
        slots := registry.slots ++ [some { unit with ordinal := registry.size }]
        capacity := roomier registry.size registry.capacity })
  else (none, registry)

/-- The unit in a slot. -/
def get? (registry : Registry) (index : Nat) : Option CompilationUnit :=
  (registry.slots[index]?).join

/-- Changes the unit in a slot, if there is one. -/
def modify (registry : Registry) (index : Nat) (change : CompilationUnit → CompilationUnit) :
    Registry :=
  { registry with slots := registry.slots.modify index (Option.map change) }

/-- Takes the unit out of a slot. -/
def take (registry : Registry) (index : Nat) : Option CompilationUnit × Registry :=
  (registry.get? index, { registry with slots := registry.slots.modify index fun _ => none })

/-! ### Reading -/

/-- The units in the slots that are not empty. -/
def units (registry : Registry) : List CompilationUnit := registry.slots.filterMap id

/-- Whether a unit with a file is there. -/
def contains (registry : Registry) (file : String) : Bool :=
  registry.units.any (·.file == file)

/-- A number in its place among numbers in ascending order. -/
def insertInOrder (number : Nat) : List Nat → List Nat
  | [] => [number]
  | first :: rest =>
      if number ≤ first then number :: first :: rest else first :: insertInOrder number rest

/-- The numbers in ascending order. -/
def inOrder (numbers : List Nat) : List Nat := numbers.foldr insertInOrder []

/-- The numbers without those that repeat the one in front of them. -/
def withoutRepeats : List Nat → List Nat
  | [] => []
  | [number] => [number]
  | first :: second :: rest =>
      if first = second then withoutRepeats (second :: rest)
      else first :: withoutRepeats (second :: rest)

/-- The units that a walk along the slots finds, the first of which has a number.  A slot gives its
unit if its number is the first of those that are wanted, which is then done with. -/
def walkSlots : Nat → List (Option CompilationUnit) → List Nat → List CompilationUnit
  | _, [], _ => []
  | index, slot :: slots, wanted =>
      if wanted.head? = some index then slot.toList ++ walkSlots (index + 1) slots wanted.tail
      else walkSlots (index + 1) slots wanted

/-- The units in the slots with the given numbers, in the order of the slots.  A number that is
repeated counts once, and one without a slot does not count. -/
def selected (registry : Registry) (ordinals : List Nat) : List CompilationUnit :=
  walkSlots 0 registry.slots (withoutRepeats (inOrder ordinals))

/-! ### What changes do -/

/-- A new unit stands in the slot behind the others. -/
theorem get?_add_new {registry : Registry} (h : registry.collecting = true)
    (unit : CompilationUnit) :
    (registry.add unit).2.get? registry.size = some { unit with ordinal := registry.size } := by
  simp [add, h, get?, size]

/-- The other units stay where they are. -/
theorem get?_add_old {registry : Registry} {index : Nat} (h : index < registry.size)
    (unit : CompilationUnit) : (registry.add unit).2.get? index = registry.get? index := by
  unfold add
  split
  · simp only [get?]
    rw [List.getElem?_append_left (by simpa [size] using h)]
  · rfl

/-- If the slots fit the room, they still do with one more unit. -/
theorem size_le_capacity_add {registry : Registry} (h : registry.size ≤ registry.capacity)
    (unit : CompilationUnit) : (registry.add unit).2.size ≤ (registry.add unit).2.capacity := by
  unfold add
  split
  · have hsize : (registry.slots ++ [some { unit with ordinal := registry.size }]).length =
        registry.size + 1 := by simp [size]
    simp only [size] at h hsize ⊢
    rw [hsize]
    unfold roomier
    split
    · split <;> omega
    · omega
  · exact h

/-- A slot is empty after its unit was taken. -/
theorem get?_take_self (registry : Registry) (index : Nat) :
    (registry.take index).2.get? index = none := by
  simp only [take, get?, List.getElem?_modify_eq]
  cases registry.slots[index]? <;> rfl

end Registry

end JavaOutline
