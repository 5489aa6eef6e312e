/-
What an analysis finds that comes to its end.

Two lists come out of one `scan` over the injection points.  The properties to check are
those of all points, in order: `checkedProperty?` is what one point brings.  The types that
need a provider are kept by outer name, so of the points that ask for types of one name the
first decides which type it is, and the others only find the name taken; `Unsupplied.covers`
says that it is.

The walk ends at the first point that `classify` refuses.  One that comes to its end has met
none, so here both lists are told by what each point asks for: `scan_of_ok` and, from an empty
start, `analyze_of_ok`.
-/
import ConfigBinder.Binding.Classification

namespace ConfigBinder

/-! ### What a point asks for

`propertyQualifier?` finds a qualifier by its name.  `IsQualifiedBy` says the same without the
search, and is what statements about a whole pass are told in.
-/

namespace InjectionPoint

/-- The qualifier is the first with the name of property qualifiers, and the container did not
put it there. -/
def IsQualifiedBy (settings : Settings) (p : InjectionPoint) (q : Annotation) : Prop :=
  p.defaulted = false ∧ q.name = settings.propertyQualifier ∧
    ∃ before after, p.qualifiers = before ++ q :: after ∧
      ∀ x ∈ before, x.name ≠ settings.propertyQualifier

theorem propertyQualifier?_eq_some_iff {settings : Settings} {p : InjectionPoint}
    {q : Annotation} : propertyQualifier? settings p = some q ↔ p.IsQualifiedBy settings q := by
  unfold propertyQualifier? IsQualifiedBy
  by_cases hdefaulted : p.defaulted = true
  · simp [hdefaulted]
  · rw [if_neg hdefaulted, qualifier?, List.find?_eq_some_iff_append]
    simp [hdefaulted]

/-- Whether a point asks for a configuration property. -/
def isAsking (settings : Settings) (p : InjectionPoint) : Bool :=
  (propertyQualifier? settings p).isSome

/-- Whether a point asks for a type that needs a provider. -/
def needsProvider (settings : Settings) (p : InjectionPoint) : Bool :=
  p.isAsking settings && !p.requiredType.isSupplied

/-- The property that a point adds to the startup check, none when there is none or the
point can take no value. -/
def checkedProperty? (settings : Settings) (source : MetadataSource) (p : InjectionPoint) :
    Option ConfigProperty :=
  match classify settings source p with
  | .ok (some c) => c.property
  | _ => none

end InjectionPoint

open InjectionPoint

variable {settings : Settings} {source : MetadataSource}

private theorem isAsking_of_classify_none {p : InjectionPoint}
    (h : classify settings source p = .ok none) : p.isAsking settings = false := by
  unfold classify at h
  split at h
  · rename_i hq
    simp [isAsking, hq]
  · rename_i qualifier _
    cases hc : classifyQualified settings source p qualifier <;> simp [hc, Except.map] at h

/-- What `classify` tells of a point that asks for a property. -/
theorem classify_some {p : InjectionPoint} {c : Classification}
    (h : classify settings source p = .ok (some c)) :
    p.isAsking settings = true ∧ c.requiredType = p.requiredType ∧
      c.supplied = p.requiredType.isSupplied ∧
      ∀ x ∈ c.property, x.requiredType = p.requiredType ∧ p.requiredType.isOptional = false := by
  unfold classify at h
  split at h
  · simp at h
  · rename_i qualifier hq
    refine ⟨by simp [isAsking, hq], ?_⟩
    unfold classifyQualified at h
    split at h
    · simp [Except.map] at h
    · simp only [Except.map, Except.ok.injEq, Option.some.injEq] at h
      rw [← h]
      refine ⟨rfl, rfl, ?_⟩
      intro x hx
      by_cases hopt : p.requiredType.isOptional = true
      · simp [hopt] at hx
      · simp only [hopt, Bool.false_or, Option.mem_def] at hx
        split at hx
        · simp at hx
        · rw [← Option.some.inj hx]
          exact ⟨rfl, by simpa using hopt⟩

/-- The property of a point has the point's type, which is no wrapper. -/
theorem InjectionPoint.requiredType_of_checkedProperty? {p : InjectionPoint} {x : ConfigProperty}
    (h : p.checkedProperty? settings source = some x) :
    p.isAsking settings = true ∧ x.requiredType = p.requiredType ∧
      p.requiredType.isOptional = false := by
  unfold checkedProperty? at h
  split at h
  · rename_i c hc
    obtain ⟨hask, -, -, hprop⟩ := classify_some hc
    exact ⟨hask, hprop x h⟩
  · simp at h

/-! ### Types by outer name

`Unsupplied.insert` is taken once for each type, so `insertAll` is told twice: by the names that
are taken behind it, whoever took them, and by the types that are kept, which are the first of
each free name.
-/

namespace Unsupplied

/-- The types with more of them, one after another. -/
def insertAll (u : Unsupplied) (types : List TypeRef) : Unsupplied := types.foldl insert u

theorem covers_iff {u : Unsupplied} {name : QualifiedName} :
    u.covers name = true ↔ ∃ t ∈ u.types, t.outerName = name := by
  simp [covers]

theorem types_insert (u : Unsupplied) (t : TypeRef) :
    (u.insert t).types = if u.covers t.outerName then u.types else u.types ++ [t] := by
  unfold insert
  by_cases h : u.covers t.outerName = true
  · rw [dif_pos h, if_pos h]
  · rw [dif_neg h, if_neg h]

theorem covers_insert (u : Unsupplied) (t : TypeRef) (name : QualifiedName) :
    (u.insert t).covers name = true ↔ u.covers name = true ∨ t.outerName = name := by
  rw [covers_iff, types_insert]
  by_cases h : u.covers t.outerName = true
  · rw [if_pos h, ← covers_iff]
    refine ⟨?_, ?_⟩
    · exact Or.inl
    · intro h
      rcases h with hn | rfl
      · exact hn
      · exact h
  · rw [if_neg h, covers_iff]
    simp [or_and_right, exists_or]

/-- `insertAll` leaves every name taken that was, or that one of the types has. -/
theorem covers_insertAll (types : List TypeRef) :
    ∀ (u : Unsupplied) (name : QualifiedName), (u.insertAll types).covers name = true ↔
      u.covers name = true ∨ ∃ t ∈ types, t.outerName = name := by
  induction types with
  | nil => intro u name; simp [insertAll]
  | cons t rest ih =>
      intro u name
      show ((u.insert t).insertAll rest).covers name = true ↔ _
      rw [ih, covers_insert, or_assoc]
      simp

/-- `insert` keeps one more type when its name was not taken. -/
theorem mem_types_insert {u : Unsupplied} {a t : TypeRef} :
    t ∈ (u.insert a).types ↔ t ∈ u.types ∨ (u.covers t.outerName = false ∧ t = a) := by
  rw [types_insert]
  by_cases h : u.covers a.outerName = true
  · rw [if_pos h]
    refine ⟨Or.inl, ?_⟩
    intro hmem
    rcases hmem with hmem | ⟨hfree, rfl⟩
    · exact hmem
    · rw [h] at hfree
      exact Bool.noConfusion hfree
  · rw [if_neg h, List.mem_append, List.mem_singleton]
    refine or_congr_right ⟨?_, And.right⟩
    intro heq
    subst heq
    exact ⟨by simpa using h, rfl⟩

/-- The type stands in the list, and none of its outer name stands before it. -/
def IsFirst (types : List TypeRef) (t : TypeRef) : Prop :=
  ∃ before after, types = before ++ t :: after ∧ ∀ x ∈ before, x.outerName ≠ t.outerName

private theorem isFirst_cons {a t : TypeRef} {rest : List TypeRef} :
    IsFirst (a :: rest) t ↔ t = a ∨ (a.outerName ≠ t.outerName ∧ IsFirst rest t) := by
  refine ⟨?_, ?_⟩
  · intro h
    obtain ⟨before, after, heq, hfirst⟩ := h
    cases before with
    | nil => exact Or.inl (List.cons.inj heq).1.symm
    | cons b before =>
        obtain ⟨rfl, rfl⟩ := List.cons.inj heq
        exact Or.inr ⟨hfirst a (by simp), before, after, rfl, fun x hx => hfirst x (by simp [hx])⟩
  · intro h
    rcases h with rfl | ⟨ha, before, after, rfl, hfirst⟩
    · exact ⟨[], rest, rfl, by simp⟩
    · refine ⟨a :: before, after, rfl, ?_⟩
      intro x hx
      rcases List.mem_cons.mp hx with rfl | hx
      · exact ha
      · exact hfirst x hx

/-- The types that `insertAll` keeps are those that were, and the first of each name that was not
taken. -/
theorem mem_insertAll (types : List TypeRef) :
    ∀ (u : Unsupplied) (t : TypeRef), t ∈ (u.insertAll types).types ↔
      t ∈ u.types ∨ (u.covers t.outerName = false ∧ IsFirst types t) := by
  induction types with
  | nil => intro u t; simp [insertAll, IsFirst]
  | cons a rest ih =>
      intro u t
      show t ∈ ((u.insert a).insertAll rest).types ↔ _
      have hfree : (u.insert a).covers t.outerName = false ↔
          u.covers t.outerName = false ∧ a.outerName ≠ t.outerName := by
        rw [← Bool.not_eq_true, covers_insert]
        simp
      rw [ih, mem_types_insert, isFirst_cons, hfree, or_assoc, and_assoc, ← and_or_left]

end Unsupplied

/-! ### The walk

Points that can be classified bring what each of them asks for, whatever stands behind them
(`scan_append`).  So a walk that came to its end is told point by point.
-/

/-- The types that a list of points asks providers for. -/
def providerTypes (settings : Settings) (points : List InjectionPoint) : List TypeRef :=
  (points.filter (needsProvider settings)).map (·.requiredType)

/-- Points that `classify` does not refuse bring what each asks for, and the walk goes on behind
them. -/
theorem scan_append (earlier rest : List InjectionPoint) :
    (∀ p ∈ earlier, ∃ asked, classify settings source p = .ok asked) → ∀ found : Unsupplied,
      scan settings source found (earlier ++ rest) =
        (earlier.filterMap (checkedProperty? settings source) ++
            (scan settings source (found.insertAll (providerTypes settings earlier)) rest).1,
          (scan settings source (found.insertAll (providerTypes settings earlier)) rest).2) := by
  induction earlier with
  | nil => intro _ found; rfl
  | cons p earlier ih =>
      intro h found
      rw [List.forall_mem_cons] at h
      obtain ⟨asked, hc⟩ := h.1
      rw [List.cons_append, scan]
      cases asked with
      | none =>
          have hask := isAsking_of_classify_none hc
          have htypes : providerTypes settings (p :: earlier) = providerTypes settings earlier := by
            rw [providerTypes, List.filter_cons_of_neg (by simp [needsProvider, hask]),
              providerTypes]
          rw [List.filterMap_cons_none (by simp [checkedProperty?, hc]), htypes]
          simp only [hc]
          exact ih h.2 found
      | some c =>
          obtain ⟨hask, htype, hsupplied, -⟩ := classify_some hc
          have hproperty : checkedProperty? settings source p = c.property := by
            simp [checkedProperty?, hc]
          have hfound : found.insertAll (providerTypes settings (p :: earlier)) =
              (if c.supplied then found else found.insert c.requiredType).insertAll
                (providerTypes settings earlier) := by
            rw [hsupplied, htype, providerTypes, providerTypes]
            by_cases hs : p.requiredType.isSupplied = true
            · rw [List.filter_cons_of_neg (by simp [needsProvider, hs]), if_pos hs]
            · rw [List.filter_cons_of_pos (by simp [needsProvider, hs, hask]), if_neg hs]
              rfl
          rw [List.filterMap_cons, hproperty, hfound]
          simp only [hc, ih h.2]
          cases c.property <;> rfl

/-- A `scan` that comes to its end has classified every point. -/
theorem classify_of_scan_ok (points : List InjectionPoint) :
    ∀ {found u : Unsupplied}, (scan settings source found points).2 = .ok u →
      ∀ p ∈ points, ∃ asked, classify settings source p = .ok asked := by
  induction points with
  | nil => intro found u _ p hp; exact nomatch hp
  | cons a rest ih =>
      intro found u h
      rw [scan] at h
      cases hc : classify settings source a with
      | error e => simp [hc] at h
      | ok asked =>
          refine List.forall_mem_cons.mpr ⟨⟨asked, hc⟩, ?_⟩
          cases asked with
          | none =>
              simp only [hc] at h
              exact ih h
          | some c =>
              simp only [hc] at h
              exact ih h

/-- A `scan` that comes to its end has the `checkedProperty?` of every point and the
`providerTypes` of all of them. -/
theorem scan_of_ok (points : List InjectionPoint) {found u : Unsupplied}
    (h : (scan settings source found points).2 = .ok u) :
    (scan settings source found points).1 =
        points.filterMap (checkedProperty? settings source) ∧
      u = found.insertAll (providerTypes settings points) := by
  have hscan := scan_append points [] (classify_of_scan_ok points h) found
  rw [List.append_nil] at hscan
  rw [hscan] at h ⊢
  exact ⟨List.append_nil _, (Except.ok.inj h).symm⟩

/-- The properties of an analysis that comes to its end, and the names it keeps types of. -/
theorem analyze_of_ok {u : Unsupplied} (h : (analyze settings source).2 = .ok u) :
    (analyze settings source).1 =
        source.injectionPoints.filterMap (checkedProperty? settings source) ∧
      u = Unsupplied.empty.insertAll (providerTypes settings source.injectionPoints) :=
  scan_of_ok source.injectionPoints h

/-- `providerTypes` has a name when one of the points needs a provider for it. -/
theorem covers_providerTypes_iff {points : List InjectionPoint} {name : QualifiedName} :
    (Unsupplied.empty.insertAll (providerTypes settings points)).covers name = true ↔
      ∃ x ∈ points, x.needsProvider settings = true ∧ x.requiredType.outerName = name := by
  rw [Unsupplied.covers_insertAll]
  refine ⟨?_, ?_⟩
  · intro h
    rcases h with h | ⟨t, ht, hname⟩
    · exact Bool.noConfusion h
    · obtain ⟨x, hx, rfl⟩ := List.mem_map.mp ht
      obtain ⟨hx, hneeds⟩ := List.mem_filter.mp hx
      exact ⟨x, hx, hneeds, hname⟩
  · intro h
    obtain ⟨x, hx, hneeds, hname⟩ := h
    exact Or.inr ⟨x.requiredType,
      List.mem_map.mpr ⟨x, List.mem_filter.mpr ⟨hx, hneeds⟩, rfl⟩, hname⟩

/-- A name is among those that need a provider when a point asks for a type of it. -/
theorem covers_of_analyze {u : Unsupplied} (h : (analyze settings source).2 = .ok u)
    {p : InjectionPoint} (hp : p ∈ source.injectionPoints)
    (hneeds : p.needsProvider settings = true) : u.covers p.requiredType.outerName = true := by
  rw [(analyze_of_ok h).2]
  exact covers_providerTypes_iff.mpr ⟨p, hp, hneeds, rfl⟩

/-- The types that need a provider: of each outer name the one that the first point asks
for. -/
theorem mem_types_of_analyze {u : Unsupplied} (h : (analyze settings source).2 = .ok u)
    {t : TypeRef} : t ∈ u.types ↔ ∃ before p after,
      source.injectionPoints = before ++ p :: after ∧ p.needsProvider settings = true ∧
        p.requiredType = t ∧
        ∀ q ∈ before, q.needsProvider settings = true →
          q.requiredType.outerName ≠ t.outerName := by
  rw [(analyze_of_ok h).2, Unsupplied.mem_insertAll]
  refine ⟨?_, ?_⟩
  · intro h
    rcases h with hnone | ⟨-, before, after, heq, hfirst⟩
    · exact nomatch hnone
    · obtain ⟨b, a, hpoints, hb, ha⟩ := List.map_eq_append_iff.mp heq
      obtain ⟨p, a', rfl, rfl, -⟩ := List.map_eq_cons_iff.mp ha
      obtain ⟨b₁, a₁, hsplit, hb₁, ha₁⟩ := List.filter_eq_append_iff.mp hpoints
      obtain ⟨skipped, a₂, rfl, hskipped, hp, -⟩ := List.filter_eq_cons_iff.mp ha₁
      refine ⟨b₁ ++ skipped, p, a₂, by simp [hsplit], hp, rfl, ?_⟩
      intro q hq hneeds
      rcases List.mem_append.mp hq with hq | hq
      · refine hfirst _ (hb ▸ List.mem_map.mpr ⟨q, ?_, rfl⟩)
        rw [← hb₁]
        exact List.mem_filter.mpr ⟨hq, hneeds⟩
      · exact absurd hneeds (hskipped q hq)
  · intro h
    obtain ⟨before, p, after, hpoints, hneeds, rfl, hfirst⟩ := h
    refine Or.inr ⟨rfl, providerTypes settings before, providerTypes settings after, ?_, ?_⟩
    · rw [hpoints, providerTypes, List.filter_append, List.map_append,
        List.filter_cons_of_pos hneeds]
      rfl
    · intro x hx
      obtain ⟨q, hq, rfl⟩ := List.mem_map.mp hx
      obtain ⟨hq, hn⟩ := List.mem_filter.mp hq
      exact hfirst q hq hn

end ConfigBinder
