/-
Texts in small letters.

Lower-casing goes through a text and writes the `SmallForm` of each character.  In ASCII that
is one character.  Outside ASCII the Kelvin sign alone has an ASCII letter as its small form,
and the small form of the capital I with a dot has one in it, with a character outside ASCII
behind it.  So a word in ASCII without a `k` is what lower-casing makes of a text just when the
text is in ASCII and is that word once its capitals are written small.
-/
import Mathlib.Data.List.Forall2

namespace ConfigBinder.Text

/-- A small form of a character.  All that is told of most characters outside ASCII is that
theirs is not within ASCII. -/
inductive SmallForm : Char → List Char → Prop
  | ascii {c : Char} (h : c.toNat < 128) : SmallForm c [c.toLower]
  | kelvin : SmallForm '\u212A' ['k']
  | other {c : Char} {form : List Char} (h : 128 ≤ c.toNat)
      (hform : ∃ d ∈ form, 128 ≤ d.toNat) : SmallForm c form

/-- The text in small letters, a `SmallForm` for each character, is the other one. -/
def InSmallLetters (s t : String) : Prop :=
  ∃ forms, List.Forall₂ SmallForm s.toList forms ∧ t.toList = forms.flatten

/-- `Char.toLower` changes nothing outside ASCII. -/
theorem toLower_eq_self {c : Char} (h : 128 ≤ c.toNat) : c.toLower = c := by
  unfold Char.toLower
  rw [dif_neg]
  intro hcapital
  have hsmall : c.toNat ≤ 90 := by simpa [UInt32.le_iff_toNat_le] using hcapital.2
  omega

/-- Where the small forms stay within ASCII and make no `k`, each is that of one character of
ASCII. -/
theorem flatten_smallForms {cs : List Char} {forms : List (List Char)}
    (h : List.Forall₂ SmallForm cs forms)
    (hplain : ∀ d ∈ forms.flatten, d.toNat < 128 ∧ d ≠ 'k') :
    forms.flatten = cs.map Char.toLower := by
  induction h with
  | nil => rfl
  | @cons c form cs forms hc _ ih =>
      rw [List.flatten_cons, List.forall_mem_append] at hplain
      rw [List.flatten_cons, ih hplain.2, List.map_cons]
      cases hc with
      | ascii _ => rfl
      | kelvin => exact absurd rfl (hplain.1 'k' (by simp)).2
      | other _ hform =>
          obtain ⟨d, hd, hlarge⟩ := hform
          exact absurd (hplain.1 d hd).1 (Nat.not_lt.mpr hlarge)

/-- **A plain word is a text in small letters just when it is the text with the capitals of
ASCII written small.** -/
theorem inSmallLetters_iff {s word : String}
    (hword : ∀ d ∈ word.toList, d.toNat < 128 ∧ d ≠ 'k') :
    InSmallLetters s word ↔ String.ofList (s.toList.map Char.toLower) = word := by
  rw [← String.toList_inj, String.toList_ofList]
  refine ⟨?_, ?_⟩
  · intro h
    obtain ⟨forms, hforms, hflatten⟩ := h
    rw [hflatten] at hword ⊢
    exact (flatten_smallForms hforms hword).symm
  · intro h
    have hascii : ∀ c ∈ s.toList, SmallForm c [c.toLower] := by
      intro c hc
      refine .ascii (Nat.lt_of_not_le fun hlarge => ?_)
      have hmem : c.toLower ∈ word.toList := h ▸ List.mem_map_of_mem hc
      rw [toLower_eq_self hlarge] at hmem
      exact absurd (hword c hmem).1 (Nat.not_lt.mpr hlarge)
    refine ⟨s.toList.map fun c => [c.toLower], ?_, ?_⟩
    · exact List.forall₂_map_right_iff.mpr (List.forall₂_same.mpr hascii)
    · rw [← h, ← List.flatMap_def, List.map_eq_flatMap]

end ConfigBinder.Text
