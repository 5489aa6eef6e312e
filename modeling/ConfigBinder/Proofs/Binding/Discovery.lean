/-
What an analysis finds, to its end or up to a misplaced point.

Two lists come out of one walk, under different rules.  The properties are kept one for each
point that `MustHaveValue`, so a point with an optional type or a default of its own brings
none.  The types are kept by outer name, the first of each, whatever becomes of the property.

A point that `IsMisplaced` ends the walk.  The properties of the points before it are kept,
since they were handed over one by one; the types are not, since they are handed over at the
end.
-/
import ConfigBinder.Proofs.Binding.Failure
import ConfigBinder.Proofs.Binding.Providers
import Mathlib.Data.List.Forall2

namespace ConfigBinder

/-! ### What a point brings

`checkedProperty?` is told by the qualifier and the type of the point: `mustHaveValue_iff` for
whether there is a property, and `ConfigProperty.IsOf` for which it is.
-/

namespace InjectionPoint

/-- The point asks for a property that must have a value at startup: its type is no wrapper of
values that may be missing, and its qualifier states no default but the one that means there
is none. -/
def MustHaveValue (settings : Settings) (p : InjectionPoint) : Prop :=
  p.requiredType.isOptional = false ∧ ∃ q, p.IsQualifiedBy settings q ∧
    ∀ v, q.value? "defaultValue" = some v → v = settings.unconfiguredValue

end InjectionPoint

/-- The property is that of the point: it has the point's type, and the name that the point's
qualifier states, or the derived one when that is left out or empty. -/
structure ConfigProperty.IsOf (settings : Settings) (source : MetadataSource)
    (p : InjectionPoint) (x : ConfigProperty) : Prop where
  requiredType : x.requiredType = p.requiredType
  name : ∃ q, p.IsQualifiedBy settings q ∧
    ((q.value? "name" = some x.name ∧ x.name ≠ "") ∨
      ((q.value? "name" = none ∨ q.value? "name" = some "") ∧
        ∃ declaringClass member, p.target.member? = some (declaringClass, member) ∧
          x.name = derivedPropertyName source declaringClass member))

section

variable {settings : Settings} {source : MetadataSource} {p : InjectionPoint}

open InjectionPoint

theorem statesDefault_eq_false_iff {q : Annotation} :
    statesDefault settings q = false ↔
      ∀ v, q.value? "defaultValue" = some v → v = settings.unconfiguredValue := by
  unfold statesDefault
  cases q.value? "defaultValue" with
  | none => simp
  | some v => simp

theorem mustHaveValue_iff :
    p.MustHaveValue settings ↔ p.requiredType.isOptional = false ∧
      ∃ q ∈ propertyQualifier? settings p, statesDefault settings q = false := by
  simp only [MustHaveValue, Option.mem_def, propertyQualifier?_eq_some_iff,
    statesDefault_eq_false_iff]

instance (settings : Settings) (p : InjectionPoint) : Decidable (p.MustHaveValue settings) :=
  decidable_of_iff _ mustHaveValue_iff.symm

private theorem statedPropertyName_cases (q : Annotation) :
    (∃ name, statedPropertyName q = some name ∧ q.value? "name" = some name ∧ name ≠ "") ∨
      (statedPropertyName q = none ∧ (q.value? "name" = none ∨ q.value? "name" = some "")) := by
  unfold statedPropertyName
  cases hname : q.value? "name" with
  | none => exact Or.inr ⟨rfl, Or.inl rfl⟩
  | some name =>
      by_cases hempty : name = ""
      · subst hempty
        exact Or.inr ⟨by simp, Or.inr rfl⟩
      · exact Or.inl ⟨name, by simp [hempty], rfl, hempty⟩

/-- A point in its place that `MustHaveValue` brings its property. -/
theorem checkedProperty?_of_mustHaveValue (hplaced : ¬ p.IsMisplaced settings)
    (h : p.MustHaveValue settings) :
    ∃ x, p.checkedProperty? settings source = some x ∧ x.IsOf settings source p := by
  obtain ⟨hoptional, q, hq, hdefault⟩ := mustHaveValue_iff.mp h
  have hq : propertyQualifier? settings p = some q := hq
  cases hmember : p.target.member? with
  | none =>
      exact absurd ⟨⟨q, propertyQualifier?_eq_some_iff.mp hq⟩,
        InjectionTarget.member?_eq_none_iff.mp hmember⟩ hplaced
  | some member =>
      obtain ⟨declaringClass, name⟩ := member
      refine ⟨⟨(statedPropertyName q).getD (derivedPropertyName source declaringClass name),
        p.requiredType⟩, ?_, rfl, q, propertyQualifier?_eq_some_iff.mp hq, ?_⟩
      · simp [checkedProperty?, classify, hq, classifyQualified, hmember, hoptional, hdefault,
          Except.map]
      · rcases statedPropertyName_cases q with ⟨stated, hstated, hname, hne⟩ | ⟨hstated, hname⟩
        · rw [hstated]
          exact Or.inl ⟨hname, hne⟩
        · rw [hstated]
          exact Or.inr ⟨hname, declaringClass, name, hmember, rfl⟩

/-- A point that need not have a value brings no property. -/
theorem checkedProperty?_of_not_mustHaveValue (h : ¬ p.MustHaveValue settings) :
    p.checkedProperty? settings source = none := by
  unfold checkedProperty? classify
  cases hq : propertyQualifier? settings p with
  | none => rfl
  | some q =>
      cases hmember : p.target.member? with
      | none => simp [classifyQualified, hmember, Except.map]
      | some member =>
          have hskipped : (p.requiredType.isOptional || statesDefault settings q) = true := by
            by_contra hkept
            rw [Bool.or_eq_true, not_or, Bool.not_eq_true, Bool.not_eq_true] at hkept
            exact h (mustHaveValue_iff.mpr ⟨hkept.1, q, hq, hkept.2⟩)
          simp [classifyQualified, hmember, hskipped, Except.map]

private theorem derivedPropertyName_ne_empty (source : MetadataSource)
    (declaringClass : QualifiedName) (member : String) :
    derivedPropertyName source declaringClass member ≠ "" := by
  -- a derived name has a point before the member
  have hpoint : ∀ a b : String, a ++ "." ++ b ≠ "" := by
    intro a b h
    rw [String.append_eq_empty_iff, String.append_eq_empty_iff] at h
    exact absurd h.1.2 (by decide)
  unfold derivedPropertyName
  split
  · exact hpoint _ member
  · exact hpoint _ member

theorem ConfigProperty.IsOf.name_ne_empty {x : ConfigProperty} (h : x.IsOf settings source p) :
    x.name ≠ "" := by
  obtain ⟨q, -, ⟨-, hne⟩ | ⟨-, declaringClass, member, -, hname⟩⟩ := h.name
  · exact hne
  · rw [hname]
    exact derivedPropertyName_ne_empty source declaringClass member

/-! ### A row of points

A row with a misplaced point is split at the first of them.  The points in front of it have their
place, so they can be classified, and a whole row without one is told in the same way.
-/

/-- Points in their places bring the properties of those that `MustHaveValue`. -/
theorem forall₂_isOf_checkedProperty? (source : MetadataSource) (points : List InjectionPoint) :
    (∀ p ∈ points, ¬ p.IsMisplaced settings) →
      List.Forall₂ (fun p x => x.IsOf settings source p)
        (points.filter fun p => p.MustHaveValue settings)
        (points.filterMap (checkedProperty? settings source)) := by
  induction points with
  | nil => intro _; exact .nil
  | cons p rest ih =>
      intro hplaced
      rw [List.forall_mem_cons] at hplaced
      by_cases hmust : p.MustHaveValue settings
      · obtain ⟨x, hx, hof⟩ : ∃ x, p.checkedProperty? settings source = some x ∧
            x.IsOf settings source p := checkedProperty?_of_mustHaveValue hplaced.1 hmust
        rw [List.filter_cons_of_pos (by simpa using hmust), List.filterMap_cons_some hx]
        exact .cons hof (ih hplaced.2)
      · rw [List.filter_cons_of_neg (by simpa using hmust),
          List.filterMap_cons_none (checkedProperty?_of_not_mustHaveValue hmust)]
        exact ih hplaced.2

/-- What `analyze` gives when no point `IsMisplaced`. -/
theorem analyze_of_placed (h : ∀ p ∈ source.injectionPoints, ¬ p.IsMisplaced settings) :
    analyze settings source = (source.injectionPoints.filterMap (checkedProperty? settings source),
      .ok (Unsupplied.empty.insertAll (providerTypes settings source.injectionPoints))) := by
  have hasked : ∀ p ∈ source.injectionPoints, ∃ asked, classify settings source p = .ok asked :=
    fun p hp => classify_of_not_isMisplaced (h p hp)
  have hscan := scan_append source.injectionPoints [] hasked .empty
  rw [List.append_nil] at hscan
  rw [analyze, hscan, scan, List.append_nil]

/-- What `analyze` gives when a point `IsMisplaced` and those in front of it are in their
places. -/
theorem analyze_of_misplaced {earlier later : List InjectionPoint}
    (hsplit : source.injectionPoints = earlier ++ p :: later) (hp : p.IsMisplaced settings)
    (hearlier : ∀ q ∈ earlier, ¬ q.IsMisplaced settings) :
    analyze settings source =
      (earlier.filterMap (checkedProperty? settings source),
        .error (.unsupportedTarget p.target)) := by
  rw [analyze, hsplit,
    scan_append earlier _ fun q hq => classify_of_not_isMisplaced (hearlier q hq), scan,
    classify_of_isMisplaced hp, List.append_nil]

end

/-! ### The stage -/

/-- The types are the required ones of the points that need a provider: of each outer name that of
the first such point (`IsFirstAt`), in the order of those firsts. -/
def AreTypesOfFirsts (settings : Settings) (points : List InjectionPoint)
    (types : List TypeRef) : Prop :=
  ∃ firsts : List (Nat × InjectionPoint), firsts.Pairwise (fun a b => a.1 < b.1) ∧
    (∀ i p, (i, p) ∈ firsts ↔ p.IsFirstAt settings points i) ∧
    types = firsts.map (·.2.requiredType)

/-- The properties are, in order and one each, those of the points whose values must be
there. -/
def ArePropertiesOf (context : BindingContext) (points : List InjectionPoint)
    (properties : List ConfigProperty) : Prop :=
  List.Forall₂ (fun p x => x.IsOf context.settings context.source p)
    (points.filter fun p => p.MustHaveValue context.settings) properties

namespace Stage

/-- How the analysis goes. -/
structure AnalysisHolds (context : BindingContext) (before : Collected) : Prop where
  /-- Without a misplaced point the analysis comes to its end, and the stage adds the properties
  and the providers of the types. -/
  complete : (∀ p ∈ context.source.injectionPoints, ¬ p.IsMisplaced context.settings) →
    ∃ found properties, analyze context.settings context.source = (properties, .ok found) ∧
      AreTypesOfFirsts context.settings context.source.injectionPoints found.types ∧
      ArePropertiesOf context context.source.injectionPoints properties ∧
      run context before .analysis =
        (before ++ { Provider.register context.settings found.types with
          properties := properties }, .done)
  /-- With one it ends at the first, and the stage adds the properties of the points before that
  one and nothing else. -/
  halted : (∃ p ∈ context.source.injectionPoints, p.IsMisplaced context.settings) →
    ∃ earlier p later properties,
      context.source.injectionPoints = earlier ++ p :: later ∧ p.IsMisplaced context.settings ∧
      (∀ q ∈ earlier, ¬ q.IsMisplaced context.settings) ∧
      analyze context.settings context.source =
        (properties, .error (.unsupportedTarget p.target)) ∧
      ArePropertiesOf context earlier properties ∧
      run context before .analysis =
        ({ before with properties := before.properties ++ properties },
          .failed (.unsupportedTarget p.target))
  /-- No property is without a name. -/
  named : ∀ x ∈ (analyze context.settings context.source).1, x.name ≠ ""

variable {context : BindingContext}

private theorem name_ne_empty_of_arePropertiesOf {points : List InjectionPoint}
    {properties : List ConfigProperty} (h : ArePropertiesOf context points properties) :
    ∀ x ∈ properties, x.name ≠ "" := by
  unfold ArePropertiesOf at h
  generalize points.filter _ = asking at h
  induction h with
  | nil => intro x hx; exact nomatch hx
  | cons hof _ ih => exact List.forall_mem_cons.mpr ⟨hof.name_ne_empty, ih⟩

/-- A failed analysis leaves its properties, and no component and no reflective class. -/
theorem append_properties_only (before : Collected) (properties : List ConfigProperty) :
    before ++ { (∅ : Collected) with properties := properties } =
      { before with properties := before.properties ++ properties } := by
  simp only [Collected.append_def, Collected.append, Collected.empty_additional,
    Collected.empty_synthetic, Collected.empty_reflective, Collected.empty_generated,
    Collected.empty_mappings, List.append_nil]

/--
**An analysis is exact, also when it fails.**  Without a misplaced point it returns the types
that need a provider, of each outer name the first, and adds a property for each point whose
value must be there, in order.  Else it fails for the first misplaced point, and all that is
added are the properties of the points before that one.
-/
theorem analysis_exact (context : BindingContext) (before : Collected) :
    AnalysisHolds context before := by
  refine ⟨?complete, ?halted, ?named⟩
  case complete =>
    intro hplaced
    have hanalyze := analyze_of_placed hplaced
    refine ⟨_, _, hanalyze, exists_firsts _ _,
      forall₂_isOf_checkedProperty? context.source _ hplaced, ?_⟩
    simp only [run, contribution, analysisItems, hanalyze, resultOf]
  case halted =>
    intro hmisplaced
    obtain ⟨earlier, p, later, hsplit, hp, hearlier⟩ := exists_first hmisplaced
    have hanalyze := analyze_of_misplaced hsplit hp hearlier
    refine ⟨earlier, p, later, _, hsplit, hp, hearlier, hanalyze,
      forall₂_isOf_checkedProperty? context.source _ hearlier, ?_⟩
    simp only [run, contribution, analysisItems, hanalyze, resultOf, append_properties_only]
  case named =>
    by_cases hmisplaced : ∃ p ∈ context.source.injectionPoints, p.IsMisplaced context.settings
    · obtain ⟨earlier, p, later, hsplit, hp, hearlier⟩ := exists_first hmisplaced
      rw [analyze_of_misplaced hsplit hp hearlier]
      exact name_ne_empty_of_arePropertiesOf
        (forall₂_isOf_checkedProperty? context.source _ hearlier)
    · have hplaced : ∀ p ∈ context.source.injectionPoints, ¬ p.IsMisplaced context.settings := by
        simpa using hmisplaced
      rw [analyze_of_placed hplaced]
      exact name_ne_empty_of_arePropertiesOf
        (forall₂_isOf_checkedProperty? context.source _ hplaced)

end Stage

end ConfigBinder
