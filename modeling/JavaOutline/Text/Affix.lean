/-
**Beginnings and ends of texts.**

Options and names are recognised by how they begin and end.

Main definitions:

* `Text.beginsWith`, `Text.endsWith` — the tests;
* `Text.behind?` — what stands behind a beginning.

Main results:

* `Text.behind?_eq_some_iff` — the beginning and what stands behind it make up the text.
-/

set_option autoImplicit false

namespace JavaOutline

namespace Text

/-- Whether the text begins with `front`. -/
def beginsWith (text front : String) : Bool := front.toList.isPrefixOf text.toList

/-- Whether the text ends with `back`. -/
def endsWith (text back : String) : Bool := back.toList.isSuffixOf text.toList

/-- The rest of a text behind a beginning, or `none` if the text begins otherwise. -/
def behind? (text front : String) : Option String :=
  if beginsWith text front then some (String.ofList (text.toList.drop front.toList.length))
  else none

/-- The beginning and what stands behind it make up the text. -/
theorem behind?_eq_some_iff {text front back : String} :
    behind? text front = some back ↔ text = front ++ back := by
  unfold behind? beginsWith
  constructor
  · intro h
    split at h
    · rename_i hp
      obtain ⟨rest, hrest⟩ := List.isPrefixOf_iff_prefix.1 hp
      have hback : back = String.ofList rest := by
        have := Option.some.inj h
        rw [← this, ← hrest]
        simp
      apply String.toList_inj.1
      rw [← hrest, hback]
      simp
    · simp at h
  · rintro rfl
    simp [List.isPrefixOf_iff_prefix]

end Text

end JavaOutline
