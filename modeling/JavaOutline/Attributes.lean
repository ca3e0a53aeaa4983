/-
**Named values in the order of their names.**

The context of a log event and the attributes of a tree node are texts under names: at most one for
each name, and listed in the order of the names.

Main definitions:

* `Attributes` — named texts;
* `Attributes.set`, `Attributes.get?` — writing and reading.

Main results:

* `Attributes.get?_set_self`, `Attributes.get?_set_of_ne` — what is written is read.
-/

set_option autoImplicit false

namespace JavaOutline

/-- Texts under names, listed in the order of the names. -/
abbrev Attributes : Type := List (String × String)

namespace Attributes

/-- The text under a name. -/
def get? (key : String) : Attributes → Option String
  | [] => none
  | (k, v) :: rest => if key = k then some v else get? key rest

/-- Puts a text under a name; an earlier one is replaced. -/
def set (key value : String) : Attributes → Attributes
  | [] => [(key, value)]
  | (k, v) :: rest =>
      if key = k then (key, value) :: rest
      else if key < k then (key, value) :: (k, v) :: rest
      else (k, v) :: set key value rest

/-- Puts several texts under their names, in order. -/
def setAll (pairs : List (String × String)) (attributes : Attributes) : Attributes :=
  pairs.foldl (fun found pair => found.set pair.1 pair.2) attributes

/-- What was written is read. -/
@[simp] theorem get?_set_self (key value : String) (attributes : Attributes) :
    get? key (set key value attributes) = some value := by
  induction attributes with
  | nil => simp [set, get?]
  | cons pair rest ih =>
      obtain ⟨k, v⟩ := pair
      unfold set
      split
      · simp [get?]
      · split
        · simp [get?]
        · rename_i hne _
          simp [get?, hne, ih]

/-- Other names keep their texts. -/
theorem get?_set_of_ne {key other : String} (h : other ≠ key) (value : String)
    (attributes : Attributes) : get? other (set key value attributes) = get? other attributes := by
  induction attributes with
  | nil => simp [set, get?, h]
  | cons pair rest ih =>
      obtain ⟨k, v⟩ := pair
      unfold set
      split
      · rename_i heq
        subst heq
        simp [get?, h]
      · split
        · simp [get?, h]
        · simp [get?, ih]

end Attributes

end JavaOutline
