/-
What a sound snapshot promises.

The check walks through the classes and remembers the names it has met.  A walk that
finds no `firstFault` has met every name once, none of them blank.
-/
import ConfigBinder.Metadata.Snapshot
import Mathlib.Data.List.Basic

namespace ConfigBinder.Snapshot

theorem firstFault_eq_none_iff (classes : List ClassEntry) :
    ∀ seen : List QualifiedName, firstFault seen classes = none ↔
      (∀ c ∈ classes, c.name.isBlank = false ∧ c.name ∉ seen) ∧ (classes.map (·.name)).Nodup := by
  induction classes with
  | nil => intro seen; simp [firstFault]
  | cons c rest ih =>
      intro seen
      rw [firstFault]
      by_cases hb : c.name.isBlank = true
      · simp [hb]
      · rw [if_neg hb]
        by_cases hs : c.name ∈ seen
        · simp [hs]
        · rw [if_neg hs, ih]
          have hblank : c.name.isBlank = false := by simpa using hb
          refine ⟨?_, ?_⟩
          · intro h
            obtain ⟨hall, hnodup⟩ := h
            refine ⟨?_, ?_⟩
            · intro d hd
              rcases List.mem_cons.mp hd with rfl | hd
              · exact ⟨hblank, hs⟩
              · exact ⟨(hall d hd).1, fun h => (hall d hd).2 (List.mem_cons_of_mem _ h)⟩
            · refine List.nodup_cons.mpr ⟨fun hmem => ?_, hnodup⟩
              obtain ⟨d, hd, hname⟩ := List.mem_map.mp hmem
              exact (hall d hd).2 (hname ▸ List.mem_cons_self)
          · intro h
            obtain ⟨hall, hnodup⟩ := h
            obtain ⟨hnot, hrest⟩ := List.nodup_cons.mp hnodup
            refine ⟨fun d hd => ⟨(hall d (List.mem_cons_of_mem _ hd)).1, fun hmem => ?_⟩, hrest⟩
            rcases List.mem_cons.mp hmem with heq | hmem
            · exact hnot (List.mem_map.mpr ⟨d, hd, heq⟩)
            · exact (hall d (List.mem_cons_of_mem _ hd)).2 hmem

/-- `validate` finds a snapshot sound just when no class name is blank and none comes twice. -/
theorem validate_eq_ok_iff {s : Snapshot} :
    s.validate = .ok () ↔
      (∀ c ∈ s.classes, c.name.isBlank = false) ∧ (s.classes.map (·.name)).Nodup := by
  have h := firstFault_eq_none_iff s.classes []
  simp only [List.not_mem_nil, not_false_eq_true, and_true] at h
  rw [← h, validate]
  cases firstFault [] s.classes <;> simp

/-- A class that `classEntry?` finds by name is listed under that name. -/
theorem mem_classes_of_classEntry? {s : Snapshot} {name : QualifiedName} {c : ClassEntry}
    (h : s.classEntry? name = some c) : c ∈ s.classes ∧ c.name = name :=
  ⟨List.mem_of_find?_eq_some h, by simpa using List.find?_some h⟩

end ConfigBinder.Snapshot
