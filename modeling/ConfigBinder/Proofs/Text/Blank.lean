/-
What is blank, and what trimming leaves.

A text is blank when all of its characters are.  Trimming takes the white space off one end
and then off the other, and `trimChars_eq_rdropWhile` puts the second as the library does.
What it leaves is a part of the text that has no white space at its ends, so trimming it once
more changes nothing, and it leaves nothing of a text that is white space only.
-/
import ConfigBinder.Text.Blank
import Mathlib.Data.List.DropRight

namespace ConfigBinder.Text

theorem allBlank_iff {s : String} : allBlank s = true ↔ ∀ c ∈ s.toList, isBlank c = true :=
  List.all_eq_true

theorem allBlank_eq_false_iff {s : String} :
    allBlank s = false ↔ ∃ c ∈ s.toList, isBlank c = false := by
  simp [allBlank]

theorem trimChars_eq_rdropWhile (cs : List Char) :
    trimChars cs = (cs.dropWhile isBlank).rdropWhile isBlank := rfl

/-- `trimChars` keeps only characters of the text. -/
theorem mem_of_mem_trimChars {c : Char} {cs : List Char} (h : c ∈ trimChars cs) : c ∈ cs := by
  rw [trimChars_eq_rdropWhile] at h
  exact (List.dropWhile_sublist isBlank).mem ((List.rdropWhile_prefix _ _).mem h)

/-- `trimChars` leaves nothing just of white space. -/
theorem trimChars_eq_nil_iff {cs : List Char} :
    trimChars cs = [] ↔ ∀ c ∈ cs, isBlank c = true := by
  rw [trimChars_eq_rdropWhile, List.rdropWhile_eq_nil_iff]
  refine ⟨?_, ?_⟩
  · intro h c hc
    rw [← List.takeWhile_append_dropWhile (p := isBlank) (l := cs)] at hc
    rcases List.mem_append.mp hc with hc | hc
    · exact List.mem_takeWhile_imp hc
    · exact h c hc
  · intro h c hc
    exact h c ((List.dropWhile_sublist isBlank).mem hc)

/-- What `trimChars` leaves does not start with white space. -/
theorem dropWhile_trimChars (cs : List Char) :
    (trimChars cs).dropWhile isBlank = trimChars cs := by
  rw [trimChars_eq_rdropWhile]
  obtain ⟨rest, hrest⟩ := List.rdropWhile_prefix isBlank (cs.dropWhile isBlank)
  cases htrim : (cs.dropWhile isBlank).rdropWhile isBlank with
  | nil => rfl
  | cons c tail =>
      -- the first character left is the first that was not taken off the start
      have hhead := List.head?_dropWhile_not isBlank cs
      rw [← hrest, htrim] at hhead
      exact List.dropWhile_cons_of_neg (by simpa using hhead)

/-- **Trimming twice is trimming once.** -/
theorem trimChars_trimChars (cs : List Char) : trimChars (trimChars cs) = trimChars cs := by
  rw [trimChars_eq_rdropWhile (trimChars cs), dropWhile_trimChars, trimChars_eq_rdropWhile,
    List.rdropWhile_idempotent]

end ConfigBinder.Text
