/-
An array converts its items one after another, whatever its level.

A text stands for several items with commas between them.  Each is trimmed, and those of
which nothing is left are passed over: `IsItemsOf` tells the items without the splitting.  So
an item has no comma and no white space at its ends, and it is its own only item.  That is why
the levels of an array collapse: an array of arrays gives each item to the inner array, which
hands it on as it is.  The converter is the same for every level from the first on, and it
gives the items to the element in turn.
-/
import ConfigBinder.Proofs.Startup.Resolution
import ConfigBinder.Proofs.Text.Blank

namespace ConfigBinder

open QualifiedName

namespace Converter

/-! ### The items of a text -/

/-- What trimming leaves of texts, where it leaves anything. -/
def trimmed (texts : List String) : List String := (texts.map Text.trim).filter (· ≠ "")

/-- The items of a text are what trimming leaves of the texts between its commas. -/
def IsItemsOf (raw : String) (xs : List String) : Prop :=
  ∃ texts, texts ≠ [] ∧ (∀ t ∈ texts, ',' ∉ t.toList) ∧ raw = ",".intercalate texts ∧
    xs = trimmed texts

@[simp] theorem trimmed_nil : trimmed [] = [] := rfl

@[simp] theorem trimmed_append (xs ys : List String) :
    trimmed (xs ++ ys) = trimmed xs ++ trimmed ys := by
  simp [trimmed]

theorem items_eq_trimmed (raw : String) :
    items raw = trimmed ((raw.toList.splitOn ',').map String.ofList) := by
  rw [items]
  generalize raw.toList.splitOn ',' = pieces
  induction pieces with
  | nil => rfl
  | cons p ps ih =>
      by_cases hp : Text.trimChars p = []
      · simp_all [trimmed, Text.trim]
      · simp_all [trimmed, Text.trim]

theorem items_intercalate_of_no_comma {texts : List String} (hne : texts ≠ [])
    (h : ∀ t ∈ texts, ',' ∉ t.toList) : items (",".intercalate texts) = trimmed texts := by
  have hsplit : (",".intercalate texts).toList.splitOn ',' = texts.map String.toList := by
    rw [String.toList_intercalate]
    exact List.splitOn_intercalate ',' (by simpa using h) (by simpa using hne)
  rw [items_eq_trimmed, hsplit, List.map_map]
  simp

/-- The texts between the commas of a text have its other characters. -/
theorem of_mem_splitOn {cs : List Char} :
    ∀ p ∈ cs.splitOn ',', ∀ c ∈ p, c ∈ cs ∧ c ≠ ',' := by
  induction cs with
  | nil => simp
  | cons d rest ih =>
      have ih' : ∀ p ∈ rest.splitOn ',', ∀ c ∈ p, c ∈ d :: rest ∧ c ≠ ',' := fun p hp c hc =>
        ⟨List.mem_cons_of_mem d (ih p hp c hc).1, (ih p hp c hc).2⟩
      rw [List.splitOn_cons_eq_if_modifyHead]
      by_cases hd : d = ','
      · simpa [hd] using ih'
      · cases hrest : rest.splitOn ',' with
        | nil => exact absurd hrest (List.splitOn_ne_nil ',' rest)
        | cons q qs =>
            rw [hrest] at ih'
            simpa [hd] using ih'

/-- `IsItemsOf` holds of the `items` of a text, and of no others. -/
theorem isItemsOf_iff {raw : String} {xs : List String} : IsItemsOf raw xs ↔ xs = items raw := by
  refine ⟨?_, ?_⟩
  · rintro ⟨texts, hne, hcommas, rfl, rfl⟩
    exact (items_intercalate_of_no_comma hne hcommas).symm
  · intro h
    refine ⟨(raw.toList.splitOn ',').map String.ofList, ?_, ?_, ?_, ?_⟩
    · simp
    · simpa using fun p hp hc => (of_mem_splitOn p hp ',' hc).2 rfl
    · refine String.ext_iff.mpr ?_
      rw [String.toList_intercalate, List.map_map]
      simp [Function.comp_def]
    · rw [h, items_eq_trimmed]

/-- An item is the only one of its own `items`: it has no comma, and trimming it again changes
nothing. -/
theorem items_of_mem_items {raw item : String} (h : item ∈ items raw) : items item = [item] := by
  rw [items] at h
  obtain ⟨ts, hts, rfl⟩ := List.mem_map.mp h
  obtain ⟨hmem, hne⟩ := List.mem_filter.mp hts
  obtain ⟨p, hp, rfl⟩ := List.mem_map.mp hmem
  have hcomma : ',' ∉ Text.trimChars p := fun hc =>
    (of_mem_splitOn p hp ',' (Text.mem_of_mem_trimChars hc)).2 rfl
  rw [items, String.toList_ofList, List.splitOn_eq_singleton hcomma]
  have hne : Text.trimChars p ≠ [] := by simpa using hne
  simp [Text.trimChars_trimChars, hne]

theorem existsUnique_isItemsOf (raw : String) : ∃! xs, IsItemsOf raw xs :=
  ⟨items raw, isItemsOf_iff.mpr rfl, fun _ h => isItemsOf_iff.mp h⟩

/-- A text of commas and white space has no items. -/
theorem items_eq_nil {raw : String} (h : ∀ c ∈ raw.toList, c = ',' ∨ Text.isBlank c = true) :
    items raw = [] := by
  rw [items, List.map_eq_nil_iff, List.filter_eq_nil_iff]
  intro ts hts
  obtain ⟨p, hp, rfl⟩ := List.mem_map.mp hts
  have hblank : ∀ c ∈ p, Text.isBlank c = true := fun c hc =>
    (h c (of_mem_splitOn p hp c hc).1).resolve_left (of_mem_splitOn p hp c hc).2
  simp [Text.trimChars_eq_nil_iff.mpr hblank]

/-! ### Converting in turn -/

/-- The answer to texts that are given to a converter one after another: all must be
accepted, and else the first that is refused gives the reason. -/
structure AnswersInTurn (element : Converter) (xs : List String)
    (answer : Except String Unit) : Prop where
  accepts_iff : answer = .ok () ↔ ∀ x ∈ xs, element x = .ok ()
  refuses_iff : ∀ reason, answer = .error reason ↔ ∃ before x after, xs = before ++ x :: after ∧
    (∀ y ∈ before, element y = .ok ()) ∧ element x = .error reason

theorem answersInTurn_forM (element : Converter) (xs : List String) :
    AnswersInTurn element xs (xs.forM element) :=
  ⟨forM_eq_ok_iff, fun _ => forM_eq_error_iff⟩

/-- Converters that agree on the texts give one answer to them in turn. -/
theorem forM_congr {f g : Converter} {xs : List String} (h : ∀ x ∈ xs, f x = g x) :
    xs.forM f = xs.forM g := by
  induction xs with
  | nil => rfl
  | cons x rest ih =>
      show (f x >>= fun _ => rest.forM f) = (g x >>= fun _ => rest.forM g)
      rw [h x (by simp), ih fun y hy => h y (by simp [hy])]

/-! ### Levels

The first level does all of the splitting.  Each further one is given single items, and an item
is its own only item.
-/

/-- **The levels of an array collapse.**  From the first on they make no difference: `arrays` is
`array`. -/
theorem arrays_succ (element : Converter) (n : Nat) : arrays element (n + 1) = array element := by
  funext raw
  refine forM_congr ?_
  intro item hitem
  exact arrays_of_items_eq (items_of_mem_items hitem) n

end Converter

namespace KnownTypes

open Converter

private theorem resolve_arrayName_succ (known : KnownTypes) (base : String) (n : Nat) :
    known.resolve (arrayName base (n + 1)) = (known.resolve base).map array := by
  simp only [resolve_arrayName, arrays_succ]

/-- How the arrays of a type convert. -/
structure ArraysConvert (known : KnownTypes) (base : String) : Prop where
  /-- An array of any level is known just when the type is. -/
  isSome_iff : ∀ n, (known.resolve (arrayName base (n + 1))).isSome = true ↔
    (known.resolve base).isSome = true
  /-- From the first on the levels make no difference. -/
  level : ∀ m n, known.resolve (arrayName base (m + 1)) = known.resolve (arrayName base (n + 1))
  /-- Each text has its items. -/
  items : ∀ raw, ∃! xs, IsItemsOf raw xs
  /-- The array answers as the type does to the items in turn (`AnswersInTurn`). -/
  answers : ∀ n element array, known.resolve base = some element →
    known.resolve (arrayName base (n + 1)) = some array →
      ∀ raw xs, IsItemsOf raw xs → AnswersInTurn element xs (array raw)
  /-- So it accepts a text of commas and white space. -/
  blank : ∀ n array, known.resolve (arrayName base (n + 1)) = some array →
    ∀ raw, (∀ c ∈ raw.toList, c = ',' ∨ Text.isBlank c = true) → array raw = .ok ()

/-- **An array converts its items.**  Whatever is known, an array is known when its element
is.  The element is given the items of the text, trimmed and without the blank ones, and the
first that it refuses is told.  How many levels the array has makes no difference. -/
theorem arrays_convert (known : KnownTypes) (base : String) : known.ArraysConvert base := by
  refine ⟨?_, ?_, existsUnique_isItemsOf, ?_, ?_⟩
  · intro n
    rw [resolve_arrayName_succ, Option.isSome_map]
  · intro m n
    rw [resolve_arrayName_succ, resolve_arrayName_succ]
  · intro n element array helement harray raw xs hxs
    rw [resolve_arrayName_succ, helement] at harray
    obtain rfl := Option.some.inj harray
    rw [isItemsOf_iff.mp hxs]
    exact answersInTurn_forM element (Converter.items raw)
  · intro n array harray raw hraw
    rw [resolve_arrayName_succ] at harray
    obtain ⟨element, -, rfl⟩ := Option.map_eq_some_iff.mp harray
    rw [Converter.array, items_eq_nil hraw]
    rfl

end KnownTypes

end ConfigBinder
