/-
What grouped properties ask for.

Grouping forgets order and repetition, and nothing else: `Asks` holds of a property and a type
just when some property of the list has that name and that type's outer name
(`asks_group`).
-/
import ConfigBinder.Binding.PropertyTypes
import ConfigBinder.Proofs.Ordered

namespace ConfigBinder

namespace PropertyTypes

/-- A property is asked for as a type. -/
def Asks (m : PropertyTypes) (property type : String) : Prop :=
  ∃ types, m.get? property = some types ∧ type ∈ types

private theorem not_asks_empty (property type : String) : ¬ Asks ∅ property type := by
  intro hasks
  obtain ⟨types, h, -⟩ := hasks
  exact nomatch h

private theorem asks_add {m : PropertyTypes} {p t property type : String} :
    (m.add p t).Asks property type ↔ (property = p ∧ type = t) ∨ m.Asks property type := by
  unfold Asks add
  by_cases hp : property = p
  · subst hp
    rw [OrderedMap.get?_insert_self]
    refine ⟨?_, ?_⟩
    · intro h
      obtain ⟨types, hget, hmem⟩ := h
      rw [← Option.some.inj hget, OrderedSet.mem_insert] at hmem
      rcases hmem with rfl | hmem
      · exact Or.inl ⟨rfl, rfl⟩
      · refine Or.inr ?_
        cases hold : m.get? property with
        | none =>
            rw [hold] at hmem
            exact nomatch hmem
        | some old =>
            rw [hold] at hmem
            exact ⟨old, rfl, hmem⟩
    · intro h
      rcases h with ⟨-, rfl⟩ | ⟨types, hget, hmem⟩
      · exact ⟨_, rfl, OrderedSet.mem_insert.mpr (Or.inl rfl)⟩
      · refine ⟨_, rfl, OrderedSet.mem_insert.mpr (Or.inr ?_)⟩
        rw [hget]
        exact hmem
  · rw [OrderedMap.get?_insert_of_ne _ _ hp]
    simp [hp]

private theorem asks_foldl_add (pairs : List (String × String)) :
    ∀ {m : PropertyTypes} {property type : String},
      (pairs.foldl (fun m p => m.add p.1 p.2) m).Asks property type ↔
        m.Asks property type ∨ (property, type) ∈ pairs := by
  induction pairs with
  | nil => intro m property type; simp
  | cons pair rest ih =>
      intro m property type
      obtain ⟨p, t⟩ := pair
      rw [List.foldl_cons, ih, asks_add, List.mem_cons, Prod.mk.injEq]
      refine ⟨?_, ?_⟩
      · intro h
        rcases h with (h | h) | h
        all_goals simp [h]
      · intro h
        rcases h with h | h | h
        all_goals simp [h]

/-! ### A map without empty entries

A property that is there without any type asks for nothing, so `Asks` alone does not tell a map.
Maps that are grouped from a list are `Filled`, and of those it does.
-/

/-- No property is there without a type. -/
def Filled (m : PropertyTypes) : Prop :=
  ∀ property types, m.get? property = some types → ∃ type, type ∈ types

private theorem filled_add {m : PropertyTypes} (h : m.Filled) (p t : String) :
    (m.add p t).Filled := by
  intro property types hget
  unfold add at hget
  by_cases hp : property = p
  · subst hp
    rw [OrderedMap.get?_insert_self] at hget
    rw [← Option.some.inj hget]
    exact ⟨t, OrderedSet.mem_insert.mpr (Or.inl rfl)⟩
  · rw [OrderedMap.get?_insert_of_ne _ _ hp] at hget
    exact h property types hget

theorem filled_ofPairs (pairs : List (String × String)) : (ofPairs pairs).Filled := by
  have hfold : ∀ {m : PropertyTypes}, m.Filled →
      (pairs.foldl (fun m p => m.add p.1 p.2) m).Filled := by
    induction pairs with
    | nil => intro m h; exact h
    | cons pair rest ih =>
        intro m h
        exact ih (filled_add h pair.1 pair.2)
  exact hfold fun _ _ h => nomatch h

theorem asks_iff_of_get? {m : PropertyTypes} {property type : String}
    {types : OrderedSet String} (h : m.get? property = some types) :
    m.Asks property type ↔ type ∈ types := by
  simp [Asks, h]

theorem not_asks_of_get? {m : PropertyTypes} {property type : String}
    (h : m.get? property = none) : ¬ m.Asks property type := by
  simp [Asks, h]

/-- A map that is `Filled` is told by what it `Asks`. -/
theorem ext_asks {m n : PropertyTypes} (hm : m.Filled) (hn : n.Filled)
    (h : ∀ property type, m.Asks property type ↔ n.Asks property type) : m = n := by
  refine OrderedMap.ext_get? ?_
  intro property
  cases hmget : m.get? property with
  | none =>
      cases hnget : n.get? property with
      | none => rfl
      | some types =>
          obtain ⟨type, htype⟩ := hn property types hnget
          have hasks := (h property type).mpr ((asks_iff_of_get? hnget).mpr htype)
          exact absurd hasks (not_asks_of_get? hmget)
  | some types =>
      cases hnget : n.get? property with
      | none =>
          obtain ⟨type, htype⟩ := hm property types hmget
          have hasks := (h property type).mp ((asks_iff_of_get? hmget).mpr htype)
          exact absurd hasks (not_asks_of_get? hnget)
      | some types' =>
          congr 1
          refine OrderedSet.ext_mem ?_
          intro type
          rw [← asks_iff_of_get? hmget, h, asks_iff_of_get? hnget]

end PropertyTypes

/-- `group` asks for what the list of properties does. -/
theorem ConfigProperty.asks_group {properties : List ConfigProperty} {property type : String} :
    (group properties).Asks property type ↔
      ∃ p ∈ properties, p.name = property ∧ p.typeName = type := by
  unfold group PropertyTypes.ofPairs
  rw [PropertyTypes.asks_foldl_add]
  refine ⟨?_, ?_⟩
  · intro h
    rcases h with h | h
    · exact absurd h (PropertyTypes.not_asks_empty _ _)
    · obtain ⟨p, hp, heq⟩ := List.mem_map.mp h
      exact ⟨p, hp, (Prod.mk.inj heq).1, (Prod.mk.inj heq).2⟩
  · intro h
    obtain ⟨p, hp, rfl, rfl⟩ := h
    exact Or.inr (List.mem_map.mpr ⟨p, hp, rfl⟩)

/-- `group` makes the same of two lists just when they hold the same pairs of a name and a type. -/
theorem ConfigProperty.group_eq_iff {xs ys : List ConfigProperty} :
    group xs = group ys ↔ ∀ name type, (∃ p ∈ xs, p.name = name ∧ p.typeName = type) ↔
      ∃ p ∈ ys, p.name = name ∧ p.typeName = type := by
  refine ⟨?_, ?_⟩
  · intro h name type
    rw [← asks_group, h, asks_group]
  · intro h
    refine PropertyTypes.ext_asks (PropertyTypes.filled_ofPairs _)
      (PropertyTypes.filled_ofPairs _) fun name type => ?_
    exact asks_group.trans ((h name type).trans asks_group.symm)

/-- `group` makes the same of properties in any order and repetition. -/
theorem ConfigProperty.group_congr {xs ys : List ConfigProperty} (h : ∀ p, p ∈ xs ↔ p ∈ ys) :
    group xs = group ys :=
  group_eq_iff.mpr fun name type => by simp only [h]

/-- `lookedUp` has the types that are not primitive and were not seen before. -/
theorem ConfigProperty.mem_lookedUp {name : String} (properties : List ConfigProperty) :
    ∀ seen : List String, name ∈ lookedUp seen properties ↔
      name ∉ seen ∧ ∃ p ∈ properties, p.requiredType.isPrimitive = false ∧ p.typeName = name := by
  induction properties with
  | nil => intro seen; simp [lookedUp]
  | cons p rest ih =>
      intro seen
      rw [lookedUp]
      by_cases hskip : (p.requiredType.isPrimitive || seen.contains p.typeName) = true
      · rw [if_pos hskip, ih]
        simp only [Bool.or_eq_true, List.contains_iff_mem] at hskip
        refine and_congr_right fun hseen => ?_
        rw [List.exists_mem_cons_iff]
        refine ⟨Or.inr, ?_⟩
        intro h
        rcases h with ⟨hprim, rfl⟩ | h
        · rcases hskip with hp | hs
          · rw [hprim] at hp
            exact Bool.noConfusion hp
          · exact absurd hs hseen
        · exact h
      · rw [if_neg hskip, List.mem_cons, ih]
        simp only [Bool.or_eq_true, List.contains_iff_mem, not_or, Bool.not_eq_true] at hskip
        rw [List.exists_mem_cons_iff, List.mem_cons, not_or]
        by_cases hname : name = p.typeName
        · subst hname
          simp [hskip]
        · simp [hname, Ne.symm hname]

end ConfigBinder
