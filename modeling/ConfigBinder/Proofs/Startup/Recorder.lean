/-
What a recorder reports and registers.

The problems are those of the pairs that the plan asks for, and nothing else
(`mem_problems_iff`).  With every interface named, registration comes to its end and adds the
whole set.
-/
import ConfigBinder.Proofs.Binding.PropertyTypes
import ConfigBinder.Startup.Recorder

namespace ConfigBinder

/-! ### Problems -/

/-- `problems` are those of the pairs that the map `Asks` for. -/
theorem PropertyTypes.mem_problems_iff {types : PropertyTypes} {resolve : TypeResolver}
    {values : ConfigValues} {x : PropertyProblem} :
    x ∈ types.problems resolve values ↔ ∃ property type, types.Asks property type ∧
      PropertyProblem.find? resolve (values.stated? property) property type = some x := by
  unfold problems
  rw [List.mem_flatMap]
  refine ⟨?_, ?_⟩
  · intro h
    obtain ⟨⟨property, names⟩, hentry, hx⟩ := h
    obtain ⟨type, htype, hfind⟩ := List.mem_filterMap.mp hx
    exact ⟨property, type, ⟨names, OrderedMap.mem_entries_iff.mp hentry, htype⟩, hfind⟩
  · intro h
    obtain ⟨property, type, ⟨names, hget, htype⟩, hfind⟩ := h
    exact ⟨(property, names), OrderedMap.mem_entries_iff.mpr hget,
      List.mem_filterMap.mpr ⟨type, htype, hfind⟩⟩

/-- `validate` finds no problem and succeeds, or it finds some and tells them. -/
theorem PropertyTypes.validate_cases (types : PropertyTypes) (resolve : TypeResolver)
    (values : ConfigValues) :
    (types.problems resolve values = [] ∧ types.validate resolve values = .ok ()) ∨
      (types.problems resolve values ≠ [] ∧ types.validate resolve values =
        .error (.invalidProperties (types.problems resolve values))) := by
  unfold validate
  cases types.problems resolve values with
  | nil => exact Or.inl ⟨rfl, rfl⟩
  | cons x rest => exact Or.inr ⟨List.cons_ne_nil x rest, rfl⟩

namespace PropertyProblem

/-- A conversion is reported when there is a value that the type's converter refuses. -/
theorem find?_eq_conversion_iff {resolve : TypeResolver} {value : Option String}
    {property type p t reason : String} :
    find? resolve value property type = some (.conversion p t reason) ↔
      property = p ∧ type = t ∧ ∃ converter raw,
        resolve type = some converter ∧ value = some raw ∧ converter raw = .error reason := by
  unfold find?
  split
  · rename_i h
    simp [h]
  · rename_i h
    simp
  · rename_i converter raw h
    rw [h]
    cases hconv : converter raw with
    | ok _ => simp [hconv]
    | error e => simp [hconv]

/-- No type that resolves is reported as unknown. -/
theorem find?_of_isSome {resolve : TypeResolver} {value : Option String}
    {property type : String} {x : PropertyProblem} (hr : (resolve type).isSome = true)
    (h : find? resolve value property type = some x) :
    x = .missing property type ∨ ∃ reason, x = .conversion property type reason := by
  unfold find? at h
  split at h
  · rename_i hnone
    rw [hnone] at hr
    exact Bool.noConfusion hr
  · exact Or.inl (Option.some.inj h).symm
  · split at h
    · simp at h
    · exact Or.inr ⟨_, (Option.some.inj h).symm⟩

end PropertyProblem

/-! ### Registration -/

namespace Recorder

/-- `registerAll` registers all mappings when each names an interface. -/
theorem registerAll_of_named (mappings : List MappingBinding)
    (h : ∀ m ∈ mappings, m.interface.isBlank = false) :
    ∀ r : Recorder, r.registerAll mappings =
      ({ r with registered := mappings.foldl OrderedSet.insert r.registered }, .ok ()) := by
  induction mappings with
  | nil => intro r; rfl
  | cons m rest ih =>
      intro r
      rw [registerAll, if_neg (by simp [h m (by simp)])]
      exact ih (fun x hx => h x (by simp [hx])) (r.add m)

/-- `registerAll` refuses mappings, never values. -/
theorem registerAll_ne_invalidProperties (problems : List PropertyProblem)
    (mappings : List MappingBinding) :
    ∀ r : Recorder, (r.registerAll mappings).2 ≠ .error (.invalidProperties problems) := by
  induction mappings with
  | nil => intro r h; exact nomatch h
  | cons m rest ih =>
      intro r
      rw [registerAll]
      by_cases hblank : m.interface.isBlank = true
      · rw [if_pos hblank]
        intro h
        exact nomatch h
      · rw [if_neg hblank]
        exact ih (r.add m)

/-! ### Replays -/

/-- A replay finds problems, tells them and changes nothing, or it finds none and
registers. -/
theorem replay_cases (r : Recorder) (plan : StartupPlan) :
    (plan.propertyTypes.problems r.resolve r.values ≠ [] ∧ r.replay plan =
        (r, .error (.invalidProperties (plan.propertyTypes.problems r.resolve r.values)))) ∨
      (plan.propertyTypes.problems r.resolve r.values = [] ∧
        r.replay plan = r.registerAll plan.mappings.members) := by
  unfold replay validate
  obtain ⟨hnone, hok⟩ | ⟨hsome, herror⟩ :=
    plan.propertyTypes.validate_cases r.resolve r.values
  · rw [hok]
    exact Or.inr ⟨hnone, rfl⟩
  · rw [herror]
    exact Or.inl ⟨hsome, rfl⟩

/-- A replay reports the problems of the values with the plan when there are any. -/
theorem replay_eq_invalidProperties_iff {r : Recorder} {plan : StartupPlan}
    {problems : List PropertyProblem} :
    (r.replay plan).2 = .error (.invalidProperties problems) ↔
      problems ≠ [] ∧ plan.propertyTypes.problems r.resolve r.values = problems := by
  obtain ⟨hproblems, hreplay⟩ | ⟨hnone, hreplay⟩ := replay_cases r plan
  · rw [hreplay]
    refine ⟨?_, ?_⟩
    · intro h
      obtain rfl := StartupError.invalidProperties.inj (Except.error.inj h)
      exact ⟨hproblems, rfl⟩
    · intro h
      rw [h.2]
  · rw [hreplay, hnone]
    refine ⟨?_, ?_⟩
    · intro h
      exact absurd h (registerAll_ne_invalidProperties problems _ r)
    · intro h
      exact absurd h.2.symm h.1

/-- A fresh recorder that replays a plan whose mappings all name an interface either
reports problems or registers just the mappings of the plan. -/
theorem replay_fresh_of_named {resolve : TypeResolver} {values : ConfigValues}
    {plan : StartupPlan} (h : ∀ m ∈ plan.mappings, m.interface.isBlank = false) :
    (fresh resolve values).replay plan =
      match plan.propertyTypes.problems resolve values with
      | [] => (⟨resolve, values, plan.mappings⟩, .ok ())
      | x :: rest => (fresh resolve values, .error (.invalidProperties (x :: rest))) := by
  unfold replay validate PropertyTypes.validate
  simp only [fresh]
  cases plan.propertyTypes.problems resolve values with
  | cons x rest => rfl
  | nil =>
      show registerAll ⟨resolve, values, ∅⟩ plan.mappings.members = _
      rw [registerAll_of_named _ h]
      have hset : plan.mappings.members.foldl OrderedSet.insert (∅ : OrderedSet MappingBinding) =
          plan.mappings := OrderedSet.ofList_members plan.mappings
      simp only [hset]

end Recorder

end ConfigBinder
