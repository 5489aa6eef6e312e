/-
The startup check reports every problem once.

Each pair of a property and a type is judged by itself: it passes, or one thing `Befalls` it.
What is wrong is decided in an order: whether the type exists comes before whether there is a
value, and that before whether the value converts.  A report is told by `IsReport`, without the
loops that make it, by what is in it and how it ascends, and that much fixes it: two reports on
the same values are the same list.
-/
import ConfigBinder.Proofs.Startup.Recorder
import ConfigBinder.Proofs.Text.Blank

namespace ConfigBinder

/-! ### What a value states -/

/-- A property has a text with some character that is no white space. -/
def ConfigValues.States (values : ConfigValues) (property raw : String) : Prop :=
  values property = some raw ∧ ∃ c ∈ raw.toList, Text.isBlank c = false

theorem ConfigValues.stated?_eq_some_iff {values : ConfigValues} {property raw : String} :
    values.stated? property = some raw ↔ values.States property raw := by
  unfold stated? States
  rw [Option.filter_eq_some_iff, Bool.not_eq_true', Text.allBlank_eq_false_iff]

theorem ConfigValues.stated?_eq_none_iff {values : ConfigValues} {property : String} :
    values.stated? property = none ↔ ∀ raw, ¬ values.States property raw := by
  simp only [← stated?_eq_some_iff, Option.eq_none_iff_forall_ne_some, ne_eq]

/-! ### One pair -/

/-- A property `States` a value that converts to the type. -/
def ConfigValues.Converts (values : ConfigValues) (resolve : TypeResolver)
    (property type : String) : Prop :=
  ∃ converter raw, resolve type = some converter ∧ values.States property raw ∧
    converter raw = .ok ()

namespace PropertyProblem

/-- The type that the problem is about. -/
def type : PropertyProblem → String
  | .missing _ t => t
  | .unknownType _ t => t
  | .conversion _ t _ => t

/-- The property and the type that the problem is about. -/
def pair (x : PropertyProblem) : String × String := (x.property, x.type)

/-- What is wrong with a property as a type.  A type that does not exist is told whatever
the value, and a missing value whatever the converter. -/
inductive Befalls (resolve : TypeResolver) (values : ConfigValues) (property type : String) :
    PropertyProblem → Prop
  | unknownType (hnone : resolve type = none) :
      Befalls resolve values property type (.unknownType property type)
  | missing (converter : Converter) (hsome : resolve type = some converter)
      (hblank : ∀ raw, ¬ values.States property raw) :
      Befalls resolve values property type (.missing property type)
  | conversion (converter : Converter) (raw reason : String)
      (hsome : resolve type = some converter) (hstates : values.States property raw)
      (hrefused : converter raw = .error reason) :
      Befalls resolve values property type (.conversion property type reason)

variable {resolve : TypeResolver} {values : ConfigValues} {property type : String}

/-- A problem tells the pair that it befalls. -/
theorem Befalls.pair_eq {x : PropertyProblem} (h : Befalls resolve values property type x) :
    x.pair = (property, type) := by
  cases h <;> rfl

/-- What `Befalls` a pair hangs on what its type resolves to, and on no other type. -/
theorem Befalls.of_resolve_eq {resolve' : TypeResolver} {x : PropertyProblem}
    (hx : Befalls resolve values property type x) (h : resolve type = resolve' type) :
    Befalls resolve' values property type x := by
  cases hx with
  | unknownType hnone => exact .unknownType (h.symm.trans hnone)
  | missing converter hsome hblank => exact .missing converter (h.symm.trans hsome) hblank
  | conversion converter raw reason hsome hstates hrefused =>
      exact .conversion converter raw reason (h.symm.trans hsome) hstates hrefused

/-- `find?` finds what `Befalls` a pair. -/
theorem find?_eq_some_iff {x : PropertyProblem} :
    find? resolve (values.stated? property) property type = some x ↔
      Befalls resolve values property type x := by
  refine ⟨?_, ?_⟩
  · intro h
    unfold find? at h
    split at h
    · rename_i hnone
      obtain rfl := Option.some.inj h
      exact .unknownType hnone
    · rename_i converter hsome hstated
      obtain rfl := Option.some.inj h
      exact .missing converter hsome (ConfigValues.stated?_eq_none_iff.mp hstated)
    · rename_i converter raw hsome hstated
      split at h
      · exact nomatch h
      · rename_i reason hrefused
        obtain rfl := Option.some.inj h
        exact .conversion converter raw reason hsome
          (ConfigValues.stated?_eq_some_iff.mp hstated) hrefused
  · intro h
    cases h with
    | unknownType hnone => simp only [find?, hnone]
    | missing converter hsome hblank =>
        simp only [find?, hsome, ConfigValues.stated?_eq_none_iff.mpr hblank]
    | conversion converter raw reason hsome hstates hrefused =>
        simp only [find?, hsome, ConfigValues.stated?_eq_some_iff.mpr hstates, hrefused]

/-- `find?` finds nothing just when the value `Converts`. -/
theorem find?_eq_none_iff :
    find? resolve (values.stated? property) property type = none ↔
      values.Converts resolve property type := by
  refine ⟨?_, ?_⟩
  · intro h
    unfold find? at h
    split at h
    · exact nomatch h
    · exact nomatch h
    · rename_i converter raw hsome hstated
      split at h
      · rename_i hok
        exact ⟨converter, raw, hsome, ConfigValues.stated?_eq_some_iff.mp hstated, hok⟩
      · exact nomatch h
  · intro h
    obtain ⟨converter, raw, hsome, hstates, hok⟩ := h
    simp only [find?, hsome, ConfigValues.stated?_eq_some_iff.mpr hstates, hok]

/-- One thing at most `Befalls` a pair. -/
theorem Befalls.unique {x y : PropertyProblem} (hx : Befalls resolve values property type x)
    (hy : Befalls resolve values property type y) : x = y := by
  rw [← find?_eq_some_iff] at hx hy
  exact Option.some.inj (hx.symm.trans hy)

/-- Something `Befalls` a pair just when the value does not convert. -/
theorem exists_befalls_iff :
    (∃ x, Befalls resolve values property type x) ↔ ¬ values.Converts resolve property type := by
  simp only [← find?_eq_some_iff, ← find?_eq_none_iff, Option.ne_none_iff_exists']

/-! ### The order of problems

Two nested loops make the report, over properties and over the types of each, and both ascend.
`Before` is the order that comes of it: by property first and by type behind that.
-/

/-- The property of a problem is below that of the other, or it is the same and the type
is below.  Names are compared by their code points. -/
def Before (x y : PropertyProblem) : Prop :=
  Prod.Lex (· < ·) (· < ·) x.pair y.pair

instance : Std.Asymm Before := by
  refine ⟨fun x y hxy => ?_⟩
  unfold Before at hxy ⊢
  exact Std.Asymm.asymm _ _ hxy

/-- Problems of different properties are ordered as these are. -/
theorem before_of_property_lt {x y : PropertyProblem} (h : x.property < y.property) :
    Before x y :=
  Prod.Lex.left _ _ h

/-- Problems of one property are ordered as their types. -/
theorem before_of_type_lt {x y : PropertyProblem} (hproperty : x.property = y.property)
    (h : x.type < y.type) : Before x y :=
  Prod.lex_def.mpr (Or.inr ⟨hproperty, h⟩)

/-- Problems that ascend are about different pairs. -/
theorem nodup_pairs {problems : List PropertyProblem} (h : problems.Pairwise Before) :
    (problems.map pair).Nodup := by
  refine List.pairwise_map.mpr (h.imp ?_)
  intro x y hxy heq
  rw [Before, heq] at hxy
  exact Std.Irrefl.irrefl _ hxy

end PropertyProblem

/-! ### The report

With its members given, a list that ascends without repetition can be no other, and that is how
the loops are told by `IsReport`.
-/

namespace PropertyTypes

open PropertyProblem

/-- A list of problems tells what is wrong with the pairs that the map `Asks` for: each pair that
fails has its problem there once, a pair that passes has none, and the problems ascend. -/
structure IsReport (types : PropertyTypes) (resolve : TypeResolver) (values : ConfigValues)
    (problems : List PropertyProblem) : Prop where
  /-- Only pairs that are asked for are reported, with what is wrong with them. -/
  sound : ∀ x ∈ problems, types.Asks x.property x.type ∧
    Befalls resolve values x.property x.type x
  /-- Each pair that fails is reported once. -/
  complete : ∀ property type, types.Asks property type →
    ¬ values.Converts resolve property type →
      ∃ x, Befalls resolve values property type x ∧
        problems.filter (fun y => y.pair = (property, type)) = [x]
  /-- No pair that passes is reported. -/
  passing : ∀ property type, values.Converts resolve property type →
    ∀ x ∈ problems, x.pair ≠ (property, type)
  /-- The problems ascend by property and type. -/
  ascending : problems.Pairwise Before

/-- In a list that `IsReport` are the problems that befall the pairs asked for. -/
theorem IsReport.mem_iff {types : PropertyTypes} {resolve : TypeResolver}
    {values : ConfigValues} {problems : List PropertyProblem}
    (h : types.IsReport resolve values problems) {x : PropertyProblem} :
    x ∈ problems ↔ types.Asks x.property x.type ∧
      Befalls resolve values x.property x.type x := by
  refine ⟨h.sound x, ?_⟩
  intro hx
  obtain ⟨y, hy, hone⟩ := h.complete _ _ hx.1 (exists_befalls_iff.mp ⟨x, hx.2⟩)
  obtain rfl := hy.unique hx.2
  exact List.mem_of_mem_filter (hone ▸ List.mem_singleton_self y)

/-- There is one report on given values. -/
theorem IsReport.unique {types : PropertyTypes} {resolve : TypeResolver} {values : ConfigValues}
    {xs ys : List PropertyProblem} (hx : types.IsReport resolve values xs)
    (hy : types.IsReport resolve values ys) : xs = ys :=
  hx.ascending.eq_of_mem_iff hy.ascending fun _ => hx.mem_iff.trans hy.mem_iff.symm

/-- `problems` are those that befall the pairs asked for. -/
theorem mem_problems_iff_befalls {types : PropertyTypes} {resolve : TypeResolver}
    {values : ConfigValues} {x : PropertyProblem} :
    x ∈ types.problems resolve values ↔ types.Asks x.property x.type ∧
      Befalls resolve values x.property x.type x := by
  rw [mem_problems_iff]
  refine ⟨?_, ?_⟩
  · intro h
    obtain ⟨property, type, hasks, hfind⟩ := h
    have hx := find?_eq_some_iff.mp hfind
    obtain ⟨rfl, rfl⟩ := Prod.mk.inj hx.pair_eq
    exact ⟨hasks, hx⟩
  · intro h
    exact ⟨_, _, h.1, find?_eq_some_iff.mpr h.2⟩

/-- The problems ascend: the properties of the map do, and the types of each property. -/
theorem problems_ascending (types : PropertyTypes) (resolve : TypeResolver)
    (values : ConfigValues) : (types.problems resolve values).Pairwise Before := by
  have hpair : ∀ {property type : String} {x : PropertyProblem},
      PropertyProblem.find? resolve (values.stated? property) property type = some x →
        x.property = property ∧ x.type = type := by
    intro property type x h
    exact Prod.mk.inj (find?_eq_some_iff.mp h).pair_eq
  refine List.pairwise_flatMap.mpr ⟨?_, ?_⟩
  · -- the types of one property
    intro entry _
    refine List.pairwise_filterMap.mpr (entry.2.ascending.imp ?_)
    intro a b hab x hx y hy
    refine before_of_type_lt ((hpair hx).1.trans (hpair hy).1.symm) ?_
    rw [(hpair hx).2, (hpair hy).2]
    exact compareOfLessAndEq_eq_lt.mp hab
  · -- a property and a later one
    refine types.ascending.imp ?_
    intro a b hab x hx y hy
    obtain ⟨_, _, hx⟩ := List.mem_filterMap.mp hx
    obtain ⟨_, _, hy⟩ := List.mem_filterMap.mp hy
    refine before_of_property_lt ?_
    rw [(hpair hx).1, (hpair hy).1]
    exact compareOfLessAndEq_eq_lt.mp hab

/-- `problems` is the report on the values. -/
theorem isReport_problems (types : PropertyTypes) (resolve : TypeResolver)
    (values : ConfigValues) :
    types.IsReport resolve values (types.problems resolve values) where
  sound := fun _ hx => mem_problems_iff_befalls.mp hx
  complete := by
    intro property type hasks hfails
    obtain ⟨x, hx⟩ := exists_befalls_iff.mpr hfails
    obtain ⟨rfl, rfl⟩ := Prod.mk.inj hx.pair_eq
    refine ⟨x, hx, ?_⟩
    exact filter_eq_singleton_of_nodup (nodup_pairs (types.problems_ascending resolve values))
      (mem_problems_iff_befalls.mpr ⟨hasks, hx⟩)
  passing := by
    intro property type hpasses x hx heq
    obtain ⟨rfl, rfl⟩ := Prod.mk.inj heq
    exact exists_befalls_iff.mp ⟨x, (mem_problems_iff_befalls.mp hx).2⟩ hpasses
  ascending := types.problems_ascending resolve values

/-- There is no problem just when the value `Converts` for every pair asked for. -/
theorem problems_eq_nil_iff {types : PropertyTypes} {resolve : TypeResolver}
    {values : ConfigValues} :
    types.problems resolve values = [] ↔
      ∀ property type, types.Asks property type → values.Converts resolve property type := by
  refine ⟨?_, ?_⟩
  · intro h property type hasks
    by_contra hfails
    obtain ⟨x, -, hone⟩ :=
      (types.isReport_problems resolve values).complete property type hasks hfails
    rw [h] at hone
    exact nomatch hone
  · intro h
    refine List.eq_nil_iff_forall_not_mem.mpr ?_
    intro x hx
    obtain ⟨hasks, hbefalls⟩ := mem_problems_iff_befalls.mp hx
    exact exists_befalls_iff.mp ⟨x, hbefalls⟩ (h _ _ hasks)

/-- Values of properties that are not asked for have no problems. -/
theorem problems_congr {types : PropertyTypes} {resolve : TypeResolver}
    {values others : ConfigValues}
    (h : ∀ property, (∃ type, types.Asks property type) → values property = others property) :
    types.problems resolve values = types.problems resolve others := by
  refine List.flatMap_congr ?_
  intro entry hentry
  refine List.filterMap_congr ?_
  intro type htype
  have hasks : types.Asks entry.1 type :=
    ⟨entry.2, OrderedMap.mem_entries_iff.mp hentry, htype⟩
  rw [ConfigValues.stated?, ConfigValues.stated?, h entry.1 ⟨type, hasks⟩]

/-- What the check of configured values decides and reports. -/
structure ValidationHolds (types : PropertyTypes) (resolve : TypeResolver)
    (values : ConfigValues) : Prop where
  /-- The check succeeds just when every pair asked for passes. -/
  succeeds : types.validate resolve values = .ok () ↔
    ∀ property type, types.Asks property type → values.Converts resolve property type
  /-- Otherwise it fails with the report, which has a problem at least. -/
  fails : (∃ property type, types.Asks property type ∧
      ¬ values.Converts resolve property type) →
    ∃ problems, problems ≠ [] ∧ types.IsReport resolve values problems ∧
      types.validate resolve values = .error (.invalidProperties problems)
  /-- Only the values of properties that are asked for matter. -/
  unmoved : ∀ others : ConfigValues,
    (∀ property, (∃ type, types.Asks property type) → values property = others property) →
      types.validate resolve others = types.validate resolve values

/-- **The startup check reports every problem once.**  It succeeds just when every pair
asked for has a type that exists and a value that is not blank and converts.  Otherwise
it fails with one problem for each pair that does not, in ascending order, and none for
another. -/
theorem validate_exact (types : PropertyTypes) (resolve : TypeResolver) (values : ConfigValues) :
    types.ValidationHolds resolve values := by
  refine ⟨?_, ?_, ?_⟩
  · rw [← problems_eq_nil_iff]
    obtain ⟨hnone, hok⟩ | ⟨hsome, herror⟩ := types.validate_cases resolve values
    · simp [hnone, hok]
    · simp [hsome, herror]
  · intro h
    obtain ⟨property, type, hasks, hfails⟩ := h
    obtain ⟨hnone, -⟩ | ⟨hsome, herror⟩ := types.validate_cases resolve values
    · exact absurd (problems_eq_nil_iff.mp hnone property type hasks) hfails
    · exact ⟨_, hsome, types.isReport_problems resolve values, herror⟩
  · intro others h
    rw [validate, validate, problems_congr h]

end PropertyTypes

end ConfigBinder
