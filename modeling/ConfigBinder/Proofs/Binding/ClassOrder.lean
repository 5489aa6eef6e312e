/-
What the check of a snapshot finds, and what a sound snapshot is worth.

The check walks through the classes and remembers the names it has met, so it ends at the
first class that `IsFaultyBehind` those in front of it: its name is blank or one of theirs.

A snapshot answers for a name with the first class that has it.  Without a fault no other
class has the name, and the answer no longer depends on where the class stands.  A pass asks
for classes in three places, for the names of properties, for declared mappings and for the
groups nested in them, and in each by name only.  The index of the walk over nested groups is
the one list of names that a pass holds, and `walk_congr` reads it as a set.
-/
import ConfigBinder.Proofs.Binding.Groups

namespace ConfigBinder

/-! ### The first fault

The walk carries the names it has met, so `IsFirstFaultyBehind` tells of classes behind any others.
Behind none it is `IsFirstFaulty`.
-/

/-- Behind these classes the class is at fault: its name is blank or one of theirs. -/
def ClassEntry.IsFaultyBehind (before : List ClassEntry) (c : ClassEntry) : Prop :=
  c.name.isBlank = true ∨ c.name ∈ before.map (·.name)

/-- The fault of a class that is at fault. -/
def ClassEntry.fault (c : ClassEntry) : SnapshotFault :=
  if c.name.isBlank then .blankName else .repeatedName c.name

/-- The class `IsFaultyBehind` those in front of it, and none of those is at fault behind its
own. -/
def ClassEntry.IsFirstFaulty (classes : List ClassEntry) (c : ClassEntry) : Prop :=
  ∃ before after, classes = before ++ c :: after ∧ c.IsFaultyBehind before ∧
    ∀ earlier d later, before = earlier ++ d :: later → ¬ d.IsFaultyBehind earlier

/-- The class `IsFaultyBehind` those met before and those in front of it, and none of those in
front is at fault behind its own. -/
def ClassEntry.IsFirstFaultyBehind (met classes : List ClassEntry) (c : ClassEntry) : Prop :=
  ∃ before after, classes = before ++ c :: after ∧ c.IsFaultyBehind (met ++ before) ∧
    ∀ earlier d later, before = earlier ++ d :: later → ¬ d.IsFaultyBehind (met ++ earlier)

namespace ClassEntry

variable {met rest : List ClassEntry} {a c : ClassEntry}

private theorem not_isFirstFaultyBehind_nil : ¬ c.IsFirstFaultyBehind met [] := by
  intro h
  obtain ⟨before, after, hsplit, -⟩ := h
  simp at hsplit

private theorem isFirstFaultyBehind_cons_of_faulty (ha : a.IsFaultyBehind met) :
    c.IsFirstFaultyBehind met (a :: rest) ↔ c = a := by
  refine ⟨?_, ?_⟩
  · intro h
    obtain ⟨before, after, hsplit, -, hnone⟩ := h
    cases before with
    | nil => exact (List.cons.inj hsplit).1.symm
    | cons b before =>
        obtain ⟨rfl, -⟩ := List.cons.inj hsplit
        have hfree := hnone [] a before rfl
        rw [List.append_nil] at hfree
        exact absurd ha hfree
  · intro h
    subst h
    exact ⟨[], rest, rfl, by rwa [List.append_nil], by simp⟩

private theorem isFirstFaultyBehind_cons_of_not_faulty (ha : ¬ a.IsFaultyBehind met) :
    c.IsFirstFaultyBehind met (a :: rest) ↔ c.IsFirstFaultyBehind (met ++ [a]) rest := by
  simp only [IsFirstFaultyBehind, List.append_assoc, List.singleton_append]
  refine ⟨?_, ?_⟩
  · intro h
    obtain ⟨before, after, hsplit, hfaulty, hnone⟩ := h
    cases before with
    | nil =>
        obtain ⟨rfl, -⟩ := List.cons.inj hsplit
        rw [List.append_nil] at hfaulty
        exact absurd hfaulty ha
    | cons b before =>
        obtain ⟨rfl, rfl⟩ := List.cons.inj hsplit
        refine ⟨before, after, rfl, hfaulty, ?_⟩
        intro earlier d later hbefore
        exact hnone (a :: earlier) d later (by rw [hbefore, List.cons_append])
  · intro h
    obtain ⟨before, after, rfl, hfaulty, hnone⟩ := h
    refine ⟨a :: before, after, rfl, hfaulty, ?_⟩
    intro earlier d later hsplit
    cases earlier with
    | nil =>
        obtain ⟨rfl, -⟩ := List.cons.inj hsplit
        rwa [List.append_nil]
    | cons b earlier =>
        obtain ⟨rfl, hbefore⟩ := List.cons.inj hsplit
        exact hnone earlier d later hbefore

end ClassEntry

namespace Snapshot

section

variable {seen : List QualifiedName} {met : List ClassEntry} {c : ClassEntry}

private theorem firstFault_cons_of_faulty (hseen : ∀ n, n ∈ seen ↔ n ∈ met.map (·.name))
    (h : c.IsFaultyBehind met) (rest : List ClassEntry) :
    firstFault seen (c :: rest) = some c.fault := by
  rw [firstFault, ClassEntry.fault]
  by_cases hblank : c.name.isBlank = true
  · rw [if_pos hblank, if_pos hblank]
  · have hmet : c.name ∈ seen := (hseen _).mpr (h.resolve_left hblank)
    rw [if_neg hblank, if_pos hmet, if_neg hblank]

private theorem firstFault_cons_of_not_faulty (hseen : ∀ n, n ∈ seen ↔ n ∈ met.map (·.name))
    (h : ¬ c.IsFaultyBehind met) (rest : List ClassEntry) :
    firstFault seen (c :: rest) = firstFault (c.name :: seen) rest := by
  obtain ⟨hblank, hmet⟩ := not_or.mp h
  rw [firstFault, if_neg hblank, if_neg fun hmem => hmet ((hseen _).mp hmem)]

end

/-- `firstFault` finds the fault of the class that `IsFirstFaultyBehind` those met before. -/
theorem firstFault_eq_some_iff {fault : SnapshotFault} (classes : List ClassEntry) :
    ∀ (seen : List QualifiedName) (met : List ClassEntry),
      (∀ n, n ∈ seen ↔ n ∈ met.map (·.name)) →
        (firstFault seen classes = some fault ↔
          ∃ c : ClassEntry, c.IsFirstFaultyBehind met classes ∧ c.fault = fault) := by
  induction classes with
  | nil =>
      intro seen met _
      simp [firstFault, ClassEntry.not_isFirstFaultyBehind_nil]
  | cons a rest ih =>
      intro seen met hseen
      by_cases ha : a.IsFaultyBehind met
      · rw [firstFault_cons_of_faulty hseen ha, Option.some.injEq]
        simp only [ClassEntry.isFirstFaultyBehind_cons_of_faulty ha, exists_eq_left]
      · have hseen' : ∀ n, n ∈ a.name :: seen ↔ n ∈ (met ++ [a]).map (·.name) := by
          intro n
          rw [List.mem_cons, hseen, List.map_append, List.mem_append, or_comm]
          simp
        rw [firstFault_cons_of_not_faulty hseen ha, ih _ _ hseen']
        simp only [ClassEntry.isFirstFaultyBehind_cons_of_not_faulty ha]

/-- `validate` refuses a snapshot for the class that `IsFirstFaulty`. -/
theorem validate_eq_error_iff {s : Snapshot} {fault : SnapshotFault} :
    s.validate = .error fault ↔ ∃ c : ClassEntry, c.IsFirstFaulty s.classes ∧ c.fault = fault := by
  have hvalidate : s.validate = .error fault ↔ firstFault [] s.classes = some fault := by
    rw [validate]
    cases firstFault [] s.classes <;> simp
  rw [hvalidate]
  exact firstFault_eq_some_iff s.classes [] [] (by simp)

/-! ### Classes in another order

A context holds its classes in its source, its loader and its emitter.  That the three are the
same for `withClasses` is all that is needed, since then the context is the same and the pass
need not be opened.
-/

variable {s : Snapshot}

/-- Where no class name comes twice, a class is found by its name, and nothing else is. -/
theorem classEntry?_eq_some_iff (h : (s.classes.map (·.name)).Nodup) {name : QualifiedName}
    {c : ClassEntry} : s.classEntry? name = some c ↔ c ∈ s.classes ∧ c.name = name := by
  refine ⟨fun hfound => mem_classes_of_classEntry? hfound, ?_⟩
  intro hc
  obtain ⟨hmem, rfl⟩ := hc
  have honly := filter_eq_singleton_of_nodup h hmem
  unfold classEntry?
  rw [← List.head?_filter, honly, List.head?_cons]

/-- The same snapshot with its classes listed otherwise. -/
def withClasses (s : Snapshot) (classes : List ClassEntry) : Snapshot :=
  { s with classes := classes }

variable {classes : List ClassEntry}

theorem source_withClasses_of_perm (h : (s.classes.map (·.name)).Nodup)
    (hperm : classes.Perm s.classes) : (s.withClasses classes).source = s.source := by
  have hnodup : ((s.withClasses classes).classes.map (·.name)).Nodup :=
    (hperm.map _).nodup_iff.mpr h
  have hentry : classEntry? (s.withClasses classes) = s.classEntry? := by
    funext name
    refine Option.ext fun c => ?_
    rw [classEntry?_eq_some_iff hnodup, classEntry?_eq_some_iff h]
    exact and_congr_left fun _ => hperm.mem_iff
  rw [source, source, hentry]
  rfl

private theorem manifestEmitter_congr {names names' : List QualifiedName} {loader : ClassLoader}
    (h : ∀ n, n ∈ names ↔ n ∈ names') :
    manifestEmitter names loader = manifestEmitter names' loader := by
  funext root keyPrefix
  have hnames : ∀ n, n ∈ root.name :: names ↔ n ∈ root.name :: names' := by
    intro n
    rw [List.mem_cons, List.mem_cons, h]
  rw [manifestEmitter, manifestEmitter, MappingGroup.ofMapping, MappingGroup.ofMapping,
    MappingGroup.walk_congr hnames]

/-- A pass works with nothing that depends on the order of the classes: its whole `context` is the
same. -/
theorem context_withClasses_of_perm (settings : Settings) (h : (s.classes.map (·.name)).Nodup)
    (hperm : classes.Perm s.classes) :
    (s.withClasses classes).context settings = s.context settings := by
  have hnames : ∀ n, n ∈ (s.withClasses classes).classes.map (·.name) ↔
      n ∈ s.classes.map (·.name) := fun n => (hperm.map _).mem_iff
  rw [context, context, source_withClasses_of_perm h hperm, manifestEmitter_congr hnames]

/-- **The check is exact, and a snapshot that passes it can be asked in any order.**  It is
passed just when no class name is blank and none comes twice, and else refuses the first class
whose name is blank or an earlier one.  Of a snapshot that passes, each class is found by its
name, and a pass over the classes in another order ends in the same output or error. -/
theorem validation_exact (s : Snapshot) :
    (s.validate = .ok () ↔
        (∀ c ∈ s.classes, c.name.isBlank = false) ∧ (s.classes.map (·.name)).Nodup) ∧
      (∀ fault, s.validate = .error fault ↔
        ∃ c : ClassEntry, c.IsFirstFaulty s.classes ∧ c.fault = fault) ∧
      (s.validate = .ok () →
        (∀ c ∈ s.classes, s.classEntry? c.name = some c) ∧
          ∀ classes, classes.Perm s.classes → ∀ settings,
            ((s.withClasses classes).context settings).run = (s.context settings).run) := by
  refine ⟨validate_eq_ok_iff, fun fault => validate_eq_error_iff, ?_⟩
  intro hsound
  obtain ⟨-, hnodup⟩ := validate_eq_ok_iff.mp hsound
  refine ⟨?_, ?_⟩
  · intro c hc
    exact (classEntry?_eq_some_iff hnodup).mpr ⟨hc, rfl⟩
  · intro classes hperm settings
    rw [context_withClasses_of_perm settings hnodup hperm]

end Snapshot

end ConfigBinder
