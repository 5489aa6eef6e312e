/-
A configured sequence is converted scalar by scalar.

A sequence is configured as one text, with commas between what its items are configured as.
A sequence inside it is no exception, so all levels run together, and what is empty or
configures nothing leaves commas behind that separate nothing.  The array that the text is
converted to sees none of this.  It splits at every comma and passes over blank items, and
what is left are the `leaves`, the scalars that are reached through sequences, in their order.
For this no scalar may have a comma in its text.  The texts of truth values and of numbers have
none.
-/
import ConfigBinder.Proofs.Startup.Arrays
import ConfigBinder.Startup.PropertyFile

namespace ConfigBinder

/-! ### The texts of numbers -/

namespace Decimal

private theorem comma_not_mem_digits (n : Nat) : ',' ∉ digits n := fun h =>
  absurd (isDigit_of_mem_digits n ',' h) (by decide)

private theorem comma_not_mem_intChars (n : Int) : ',' ∉ Json.intChars n := by
  unfold Json.intChars
  split <;> simp [comma_not_mem_digits]

theorem comma_not_mem_text (x : Binary64) : ',' ∉ x.text := by
  have hsign : ∀ (negative : Bool) (body : List Char), ',' ∉ body →
      ',' ∉ if negative then '-' :: body else body := by
    intro negative body h
    cases negative <;> simpa using h
  unfold Binary64.text
  rcases x.shortest with ⟨c, k⟩
  refine hsign _ _ ?_
  dsimp only
  have hds := comma_not_mem_digits c
  generalize digits c = ds at hds ⊢
  split_ifs
  · simp
  · simp [hds]
  · have htake : ',' ∉ ds.take (ds.length + k).toNat := fun h => hds (List.mem_of_mem_take h)
    have hdrop : ',' ∉ ds.drop (ds.length + k).toNat := fun h => hds (List.mem_of_mem_drop h)
    simp [htake, hdrop]
  · simp [hds]
  · rcases ds with _ | ⟨d, _ | ⟨e, rest⟩⟩ <;> simp_all [comma_not_mem_digits]
  · rcases ds with _ | ⟨d, _ | ⟨e, rest⟩⟩ <;> simp_all [comma_not_mem_digits]

end Decimal

namespace Converter

/-- The `items` of joined texts are those of each. -/
theorem items_intercalate (texts : List String) :
    items (",".intercalate texts) = texts.flatMap items := by
  induction texts with
  | nil => rfl
  | cons t rest ih =>
      cases rest with
      | nil => simp
      | cons u us =>
          have hjoin : (",".intercalate (t :: u :: us)).toList =
              t.toList ++ ',' :: (",".intercalate (u :: us)).toList := by
            simp
          rw [items_eq_trimmed, hjoin, List.splitOn_append_cons_self, List.map_append,
            trimmed_append, ← items_eq_trimmed, ← items_eq_trimmed, ih]
          rfl

/-- A text without commas has one item at most, what trimming leaves of it (`trimmed`). -/
theorem items_of_no_comma {t : String} (h : ',' ∉ t.toList) : items t = trimmed [t] := by
  have hone : items (",".intercalate [t]) = trimmed [t] :=
    items_intercalate_of_no_comma (by simp) (by simpa using h)
  simpa using hone

end Converter

namespace PropertyFile

open Yaml Converter

/-! ### The scalars of a sequence

The scalar of a value and those of the items of a sequence are told together, one theorem for
each, as `leaves` and `leavesOf` are defined.
-/

mutual
/-- The texts of the scalars that are reached through sequences only, in their order. -/
def leaves : Value → List String
  | .sequence items => leavesOf items
  | .null => []
  | .mapping _ => []
  | .tagged _ _ => []
  | scalar => (render? scalar).toList
def leavesOf : List Value → List String
  | [] => []
  | v :: rest => leaves v ++ leavesOf rest
end

/-- A value is reached from another one through sequences only. -/
inductive Reaches : Value → Value → Prop
  | self (v : Value) : Reaches v v
  | item {items : List Value} {v w : Value} (hmem : v ∈ items) (h : Reaches v w) :
      Reaches (.sequence items) w

/-- A text in a sequence is reached from one of its items. -/
theorem reaches_sequence_text {items : List Value} {s : String} :
    Reaches (.sequence items) (.text s) ↔ ∃ v ∈ items, Reaches v (.text s) := by
  refine ⟨?_, ?_⟩
  · intro h
    cases h with
    | item hmem h => exact ⟨_, hmem, h⟩
  · rintro ⟨v, hmem, h⟩
    exact .item hmem h

mutual
/-- The items of what `render?` makes of a value are its `leaves`, trimmed. -/
theorem items_render : ∀ v : Value, (∀ s, Reaches v (.text s) → ',' ∉ s.toList) →
    (render? v).toList.flatMap Converter.items = trimmed (leaves v)
  | .null, _ | .mapping _, _ | .tagged _ _, _ => rfl
  | .bool true, _ | .bool false, _ | .infinity true, _ | .infinity false, _ | .notANumber, _ => by
      decide
  | .int n, _ => by
      have hscalar := items_of_no_comma (t := .ofList (Json.intChars n))
        (by simpa using Decimal.comma_not_mem_intChars n)
      simpa [render?, leaves] using hscalar
  | .float x, _ => by
      have hscalar := items_of_no_comma (t := .ofList x.text)
        (by simpa using Decimal.comma_not_mem_text x)
      simpa [render?, leaves] using hscalar
  | .text s, h => by
      have hscalar := items_of_no_comma (h s (.self _))
      simpa [render?, leaves] using hscalar
  | .sequence items, h => by
      have hitems := items_renderItems items fun v hv s hs => h s (.item hv hs)
      simpa [render?, leaves, items_intercalate] using hitems
theorem items_renderItems : ∀ items : List Value,
    (∀ v ∈ items, ∀ s, Reaches v (.text s) → ',' ∉ s.toList) →
      (renderItems items).flatMap Converter.items = trimmed (leavesOf items)
  | [], _ => rfl
  | v :: rest, h => by
      rw [renderItems, leavesOf, List.flatMap_append, trimmed_append,
        items_render v (h v (by simp)), items_renderItems rest fun w hw => h w (by simp [hw])]
end

/-- **A configured sequence is converted scalar by scalar.**  Let no text that is reached in
it have a comma.  As an array of a known type it is accepted when the type accepts each
scalar that is reached, trimmed and unless it is blank, and else the first that is refused
is told.  What configures nothing is left out with all that it holds. -/
theorem sequence_converts {known : KnownTypes} {base : String} {element : Converter}
    {items : List Value} (hknown : known.resolve base = some element)
    (hcommas : ∀ s, Reaches (.sequence items) (.text s) → ',' ∉ s.toList) :
    ∃ text array, render? (.sequence items) = some text ∧
      known.resolve (base ++ "[]") = some array ∧
      AnswersInTurn element (trimmed (leavesOf items)) (array text) := by
  refine ⟨",".intercalate (renderItems items), Converter.array element, rfl, ?_, ?_⟩
  · rw [KnownTypes.resolve_array, hknown, Option.map_some]
  · have hitems : Converter.items (",".intercalate (renderItems items)) =
        trimmed (leavesOf items) := by
      rw [items_intercalate, items_renderItems items fun v hv s hs => hcommas s (.item hv hs)]
    rw [← hitems]
    exact answersInTurn_forM element _

/-- Ports with gaps: a sequence that is empty, one that holds a blank text, a mapping. -/
def ports : List Value :=
  [.int 8080, .sequence [], .sequence [.text " ", .sequence [.text " 9090 "]],
    .mapping [(.text "low", .text "1,2")], .text "high"]

/-- The scalars of `ports` are converted to integers one after another. -/
theorem ports_convert :
    KnownTypes.builtinOnly.resolve "int" = some (.primitive .int) ∧
      (∀ s, Reaches (.sequence ports) (.text s) → ',' ∉ s.toList) ∧
      ∃ text array, render? (.sequence ports) = some text ∧
        KnownTypes.builtinOnly.resolve ("int" ++ "[]") = some array ∧
        AnswersInTurn (.primitive .int) (trimmed (leavesOf ports)) (array text) := by
  have hcommas : ∀ s, Reaches (.sequence ports) (.text s) → ',' ∉ s.toList := by
    intro s hs
    simp only [ports, reaches_sequence_text, List.mem_cons, List.not_mem_nil, or_false,
      exists_eq_or_imp, exists_eq_left, false_and, exists_false, false_or] at hs
    rcases hs with hs | (hs | hs) | hs | hs <;> cases hs <;> decide
  exact ⟨rfl, hcommas, sequence_converts rfl hcommas⟩

example : trimmed (leavesOf ports) = ["8080", "9090", "high"] := by cbv

end PropertyFile

end ConfigBinder
