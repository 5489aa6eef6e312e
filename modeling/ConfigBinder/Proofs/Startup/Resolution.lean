/-
What resolves, and to which converter.

A name resolves in three layers: brackets at its end are taken off first, then the types that
were made known are asked, then the built-in ones (`element?` is the last two).  So a name with
brackets is known just when the name before them is, whatever else is known, and a type made
known counts for every array of it.
-/
import ConfigBinder.Proofs.InTurn
import ConfigBinder.Proofs.Ordered
import ConfigBinder.Proofs.Type.OuterName
import ConfigBinder.Startup.KnownTypes

namespace ConfigBinder

open QualifiedName

namespace Converter

/-- The converter of an array with a number of levels. -/
def arrays (element : Converter) : Nat → Converter
  | 0 => element
  | n + 1 => array (arrays element n)

/-- An array of elements that take `anything` takes any text. -/
theorem arrays_anything (n : Nat) (raw : String) : arrays anything n raw = .ok () := by
  induction n generalizing raw with
  | zero => rfl
  | succ n ih =>
      show (items raw).forM (arrays anything n) = .ok ()
      exact forM_eq_ok_iff.mpr fun item _ => ih item

/-- A text that is the only one of its own `items` converts to an array as it does to the
element. -/
theorem arrays_of_items_eq {element : Converter} {raw : String} (h : items raw = [raw]) (n : Nat) :
    arrays element n raw = element raw := by
  induction n with
  | zero => rfl
  | succ n ih =>
      have hone : array (arrays element n) raw =
          (arrays element n raw >>= fun _ => .ok ()) := by rw [array, h]; rfl
      rw [arrays, hone, ih]
      cases element raw with
      | ok _ => rfl
      | error _ => rfl

end Converter

namespace KnownTypes

/-! ### Brackets -/

private theorem resolveReversed_of_not_isPrefix (known : KnownTypes) {cs : List Char}
    (h : ¬ [']', '['] <+: cs) :
    resolveReversed known cs = known.element? (String.ofList cs.reverse) := by
  rw [resolveReversed.eq_def]
  split
  · rename_i rest
    exact absurd (List.prefix_append [']', '['] rest) h
  · rfl

/-- A name that does not end in brackets resolves to the converter of no array. -/
theorem resolve_of_not_endsInBrackets (known : KnownTypes) {name : String}
    (h : endsInBrackets name = false) : known.resolve name = known.element? name := by
  have hp : ¬ [']', '['] <+: name.toList.reverse := fun hc => by
    have hs : ['[', ']'] <:+ name.toList := by
      rw [← List.reverse_prefix]
      exact hc
    rw [endsInBrackets, List.isSuffixOf_iff_suffix.mpr hs] at h
    exact Bool.noConfusion h
  rw [resolve, resolveReversed_of_not_isPrefix known hp, List.reverse_reverse,
    String.ofList_toList]

/-- `resolve` puts array levels around the converter of a name for the brackets behind it. -/
theorem resolve_arrayName (known : KnownTypes) (base : String) (n : Nat) :
    known.resolve (arrayName base n) = (known.resolve base).map (·.arrays n) := by
  induction n with
  | zero => cases h : known.resolve base <;> simp [arrayName, h, Converter.arrays]
  | succ n ih =>
      rw [arrayName, resolve_array, ih, Option.map_map]
      rfl

/-- An array is known just when its core is. -/
theorem isSome_resolve_outerName (known : KnownTypes) (t : TypeRef) :
    (known.resolve t.outerName.text).isSome = (known.resolve t.core.outerName.text).isSome := by
  rw [t.outerName_text, resolve_arrayName, Option.isSome_map]

/-! ### Types made known -/

/-- A name that `withImplicits` makes known takes any text; the others are known as before. -/
theorem get?_withImplicits (name : String) (names : List String) :
    ∀ known : KnownTypes, (known.withImplicits names).custom.get? name =
      if name ∈ names then some .anything else known.custom.get? name := by
  induction names with
  | nil => intro known; simp [withImplicits]
  | cons n rest ih =>
      intro known
      have hstep := ih (known.withImplicit n)
      rw [withImplicits] at hstep ⊢
      rw [List.foldl_cons, hstep]
      by_cases hr : name ∈ rest
      · simp [hr]
      · rw [if_neg hr]
        by_cases hn : name = n
        · subst hn
          rw [if_pos List.mem_cons_self]
          exact OrderedMap.get?_insert_self _ _ _
        · rw [if_neg (by simp [hn, hr])]
          exact OrderedMap.get?_insert_of_ne _ _ hn

theorem get?_builtinOnly (name : String) : builtinOnly.custom.get? name = none := rfl

theorem element?_of_get?_eq_none {known : KnownTypes} {name : String}
    (h : known.custom.get? name = none) : known.element? name = builtin? name := by
  rw [element?, h, Option.none_or]

theorem element?_of_get?_eq_some {known : KnownTypes} {name : String} {c : Converter}
    (h : known.custom.get? name = some c) : known.element? name = some c := by
  rw [element?, h, Option.some_or]

/-! ### Built-in types -/

/-- What `builtin?` has is known whatever was made known. -/
theorem isSome_element?_of_builtin? {known : KnownTypes} {name : String}
    (h : (builtin? name).isSome = true) : (known.element? name).isSome = true := by
  rw [element?, Option.isSome_or, h, Bool.or_true]

/-- The primitive types are built in. -/
theorem isSome_builtin?_primitive (p : Primitive) : (builtin? p.name).isSome = true := by
  cases p <;> decide

/-- The `suppliedClasses` are built in, the wrappers of values that may be missing apart. -/
theorem isSome_builtin?_of_mem_suppliedClasses :
    ∀ name ∈ TypeRef.suppliedClasses, name ∉ TypeRef.optionalWrappers →
      (builtin? name).isSome = true := by decide

end KnownTypes

end ConfigBinder
