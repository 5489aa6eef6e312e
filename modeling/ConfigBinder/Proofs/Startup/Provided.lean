/-
How the types that a build supplies loosen the built-in checks.

A startup without the application takes any text for a type that the build supplies, and
it asks the supplied types before the built-in ones.  Primitive types are left out of the
supplied types, since they can always be converted.  The classes around them can always
be converted too, but they are not left out: the element of an array of boxed integers is
supplied, and from then on no boxed integer of the program is checked.

So the check of a type that `IsChecked` depends on the other points.  It is the built-in one
just when no point has the type supplied, and otherwise there is none.
-/
import ConfigBinder.CommandLine.Command
import ConfigBinder.Proofs.Binding.Run
import ConfigBinder.Proofs.Startup.Recorder
import ConfigBinder.Proofs.Startup.Replay
import ConfigBinder.Proofs.Startup.Resolution

namespace ConfigBinder

open QualifiedName

/-! ### Types whose texts are checked -/

namespace KnownTypes

/-- The type is primitive or a class around a primitive type. -/
def IsChecked (name : String) : Prop :=
  (∃ p : Primitive, name = p.name) ∨ name ∈ boxes.map (·.1)

private theorem builtin?_of_isChecked {name : String} (h : IsChecked name) :
    ∃ p, builtin? name = some (.primitive p) := by
  rcases h with hprim | hbox
  · obtain ⟨p, rfl⟩ := hprim
    refine ⟨p, ?_⟩
    cases p <;> rfl
  · obtain ⟨⟨boxed, p⟩, hmem, rfl⟩ := List.mem_map.mp hbox
    have hall : ∀ b ∈ boxes,
        textual.contains b.1 = false ∧
          (boxes.lookup b.1).or (Primitive.ofName? b.1) = some b.2 := by
      decide
    obtain ⟨htext, hlook⟩ := hall _ hmem
    refine ⟨p, ?_⟩
    show builtin? boxed = some (.primitive p)
    rw [builtin?, htext, hlook]
    rfl

theorem endsInBrackets_of_isChecked {name : String} (h : IsChecked name) :
    endsInBrackets name = false := by
  rcases h with hprim | hbox
  · obtain ⟨p, rfl⟩ := hprim
    exact p.endsInBrackets_name
  · have hall : ∀ b ∈ boxes.map (·.1), endsInBrackets b = false := by decide
    exact hall name hbox

/-- The stated value of a property does not convert to a type. -/
def Refuses (known : KnownTypes) (values : ConfigValues) (property type : String) : Prop :=
  ∃ converter raw reason, known.resolve type = some converter ∧
    values.stated? property = some raw ∧ converter raw = .error reason

/-- A type that `IsChecked` refuses a pair of question marks, and so do its arrays. -/
theorem builtinOnly_refuses {base : String} (h : IsChecked base) (n : Nat)
    {values : ConfigValues} {property : String} (hv : values property = some "??") :
    builtinOnly.Refuses values property (arrayName base n) := by
  obtain ⟨p, hp⟩ := builtin?_of_isChecked h
  have hstated : values.stated? property = some "??" := by
    rw [ConfigValues.stated?, hv]
    decide
  have hrefused : ∃ reason, Converter.primitive p "??" = .error reason := by
    cases p <;> exact ⟨_, rfl⟩
  obtain ⟨reason, hreason⟩ := hrefused
  refine ⟨(Converter.primitive p).arrays n, "??", reason, ?_, hstated, ?_⟩
  · rw [resolve_arrayName, resolve_of_not_endsInBrackets _ (endsInBrackets_of_isChecked h),
      element?_of_get?_eq_none (get?_builtinOnly base), hp]
    rfl
  · rw [Converter.arrays_of_items_eq (by decide), hreason]

end KnownTypes

open KnownTypes CommandLine

/-! ### What a startup reports

A failed conversion is reported when the plan asks for the pair and the startup's types refuse
the value.  Both sides are told apart from the startup: the one by the points, and `Refuses` by
what is supplied.
-/

namespace CommandLine

variable {o : BuildOutput} {values : OrderedMap String String} {property type : String}

/-- A startup without the application, and without further known types, reports that the
value of a property does not convert to a type. -/
def ReportsConversion (o : BuildOutput) (values : OrderedMap String String)
    (property type : String) : Prop :=
  ∃ problems reason, replay o values [] = .error (.invalidProperties problems) ∧
    .conversion property type reason ∈ problems

/-- What `replay` reports are the problems of the plan. -/
theorem replay_reports_iff {known : List String} {x : PropertyProblem} :
    (∃ problems, replay o values known = .error (.invalidProperties problems) ∧ x ∈ problems) ↔
      x ∈ o.plan.propertyTypes.problems (standaloneTypes o known).resolve values.get? := by
  have hreplay : ∀ problems, replay o values known = .error (.invalidProperties problems) ↔
      problems ≠ [] ∧
        o.plan.propertyTypes.problems (standaloneTypes o known).resolve values.get? = problems := by
    intro problems
    have hrecorder : ((Recorder.fresh (standaloneTypes o known).resolve values.get?).replay
        o.plan).2 = .error (.invalidProperties problems) ↔ _ :=
      Recorder.replay_eq_invalidProperties_iff
    refine Iff.trans ?_ hrecorder
    rw [replay]
    rcases (Recorder.fresh (standaloneTypes o known).resolve values.get?).replay o.plan with
      ⟨after, outcome⟩
    cases outcome with
    | ok done => simp
    | error e => simp
  refine ⟨?_, ?_⟩
  · intro h
    obtain ⟨problems, hreport, hx⟩ := h
    rw [((hreplay problems).mp hreport).2]
    exact hx
  · intro hx
    exact ⟨_, (hreplay _).mpr ⟨List.ne_nil_of_mem hx, rfl⟩, hx⟩

/-- A failed conversion is reported for what the plan `Asks` and the startup's types refuse
(`Refuses`). -/
theorem reportsConversion_iff (hasks : o.plan.propertyTypes.Asks property type) :
    ReportsConversion o values property type ↔
      (standaloneTypes o []).Refuses values.get? property type := by
  refine ⟨?_, ?_⟩
  · intro h
    obtain ⟨problems, reason, hreport, hmem⟩ := h
    obtain ⟨p, t, -, hfind⟩ :=
      PropertyTypes.mem_problems_iff.mp (replay_reports_iff.mp ⟨problems, hreport, hmem⟩)
    obtain ⟨rfl, rfl, converter, raw, hresolve, hstated, hrefused⟩ :=
      PropertyProblem.find?_eq_conversion_iff.mp hfind
    exact ⟨converter, raw, reason, hresolve, hstated, hrefused⟩
  · intro h
    obtain ⟨converter, raw, reason, hresolve, hstated, hrefused⟩ := h
    have hfind : PropertyProblem.find? (standaloneTypes o []).resolve
        (ConfigValues.stated? values.get? property) property type =
          some (.conversion property type reason) :=
      PropertyProblem.find?_eq_conversion_iff.mpr
        ⟨rfl, rfl, converter, raw, hresolve, hstated, hrefused⟩
    obtain ⟨problems, hreport, hmem⟩ := replay_reports_iff.mpr
      (PropertyTypes.mem_problems_iff.mpr ⟨property, type, hasks, hfind⟩)
    exact ⟨problems, reason, hreport, hmem⟩

/-- `standaloneTypes` refuse what the built-in ones do, unless the type without its array levels is
supplied. -/
theorem standaloneTypes_refuses_iff {base : String} (h : IsChecked base) (n : Nat)
    {values : ConfigValues} :
    (standaloneTypes o []).Refuses values property (arrayName base n) ↔
      builtinOnly.Refuses values property (arrayName base n) ∧ ⟨base⟩ ∉ o.providedTypes := by
  have hbase := endsInBrackets_of_isChecked h
  have hget := get?_standaloneTypes o [] base
  by_cases hprov : ⟨base⟩ ∈ o.providedTypes
  · rw [if_pos (Or.inr hprov)] at hget
    refine ⟨?_, ?_⟩
    · intro hrefuses
      obtain ⟨converter, raw, reason, hresolve, -, hrefused⟩ := hrefuses
      rw [resolve_arrayName, resolve_of_not_endsInBrackets _ hbase,
        element?_of_get?_eq_some hget] at hresolve
      have hconverter : converter = Converter.arrays .anything n :=
        (Option.some.inj hresolve).symm
      rw [hconverter, Converter.arrays_anything] at hrefused
      exact nomatch hrefused
    · intro hrefuses
      exact absurd hprov hrefuses.2
  · rw [if_neg (by simp [hprov])] at hget
    have hsame : (standaloneTypes o []).resolve (arrayName base n) =
        builtinOnly.resolve (arrayName base n) := by
      rw [resolve_arrayName, resolve_arrayName, resolve_of_not_endsInBrackets _ hbase,
        resolve_of_not_endsInBrackets _ hbase, element?_of_get?_eq_none hget,
        element?_of_get?_eq_none (get?_builtinOnly base)]
    unfold Refuses
    rw [hsame]
    refine ⟨?_, ?_⟩
    · intro hrefuses
      exact ⟨hrefuses, hprov⟩
    · intro hrefuses
      exact hrefuses.1

end CommandLine

/-! ### When the check is the built-in one -/

namespace BindingContext

variable {context : BindingContext} {o : BuildOutput} {property base : String} {n : Nat}

/-- **Supplied types are not checked.**  Let a plan ask for a property as a primitive
type, as the class around one, or as an array of either.  A startup without the
application reports a failed conversion just when the built-in types refuse the value and
no point has the type, without its array levels, supplied.  So it is the built-in check
for all values just when no point does. -/
theorem builtin_check_iff (hrun : context.run = .ok o) (hbase : IsChecked base)
    (hasks : o.plan.propertyTypes.Asks property (arrayName base n)) :
    (∀ values, ReportsConversion o values property (arrayName base n) ↔
        builtinOnly.Refuses values.get? property (arrayName base n) ∧
          ¬ context.Provides ⟨base⟩) ∧
      ((∀ values, ReportsConversion o values property (arrayName base n) ↔
          builtinOnly.Refuses values.get? property (arrayName base n)) ↔
        ¬ context.Provides ⟨base⟩) := by
  have hreports : ∀ values, ReportsConversion o values property (arrayName base n) ↔
      builtinOnly.Refuses values.get? property (arrayName base n) ∧
        ¬ context.Provides ⟨base⟩ := by
    intro values
    rw [reportsConversion_iff hasks, standaloneTypes_refuses_iff hbase,
      mem_providedTypes_of_run hrun]
  refine ⟨hreports, ?_⟩
  refine ⟨?_, ?_⟩
  · intro hsame
    -- A text that no checked type takes shows the difference.
    have hvalue : ((∅ : OrderedMap String String).insert property "??").get? property =
        some "??" := OrderedMap.get?_insert_self _ _ _
    have hrefused := builtinOnly_refuses hbase n hvalue
    exact ((hreports _).mp ((hsame _).mpr hrefused)).2
  · intro hnot values
    rw [hreports values]
    refine ⟨?_, ?_⟩
    · intro h
      exact h.1
    · intro h
      exact ⟨h, hnot⟩

/-- A point that asks for an integer. -/
def portPoint : InjectionPoint :=
  ⟨.field ⟨"app.Client"⟩ "port", .named ⟨"java.lang.Integer"⟩,
    [⟨Settings.default.propertyQualifier, .ofList [("name", "port")]⟩], false⟩

/-- A point that asks for several integers. -/
def retriesPoint : InjectionPoint :=
  ⟨.field ⟨"app.Client"⟩ "retries", .array (.named ⟨"java.lang.Integer"⟩),
    [⟨Settings.default.propertyQualifier, .ofList [("name", "retries")]⟩], false⟩

/-- A port is checked as an integer in a program that asks for nothing else. -/
theorem builtin_check_port :
    ∃ o, (Snapshot.context .default ⟨[], [portPoint], [], []⟩).run = .ok o ∧
      IsChecked "java.lang.Integer" ∧
      o.plan.propertyTypes.Asks "port" (arrayName "java.lang.Integer" 0) ∧
      ∀ values, ReportsConversion o values "port" (arrayName "java.lang.Integer" 0) ↔
        builtinOnly.Refuses values.get? "port" (arrayName "java.lang.Integer" 0) ∧
          ¬ (Snapshot.context .default ⟨[], [portPoint], [], []⟩).Provides
            ⟨"java.lang.Integer"⟩ := by
  have hchecked : IsChecked "java.lang.Integer" := Or.inr (by decide)
  refine ⟨_, rfl, hchecked, ?_, ?_⟩
  · exact ⟨_, rfl, by decide⟩
  · exact (builtin_check_iff rfl hchecked ⟨_, rfl, by decide⟩).1

/-- A word for a port passes in a program that also asks for several integers. -/
theorem port_unchecked :
    ∃ o, (Snapshot.context .default ⟨[], [portPoint, retriesPoint], [], []⟩).run = .ok o ∧
      o.plan.propertyTypes.Asks "port" "java.lang.Integer" ∧
      builtinOnly.Refuses (OrderedMap.ofList [("port", "http"), ("retries", "1, 2")]).get?
        "port" "java.lang.Integer" ∧
      ¬ ReportsConversion o (.ofList [("port", "http"), ("retries", "1, 2")])
        "port" "java.lang.Integer" := by
  refine ⟨_, rfl, ⟨_, rfl, by decide⟩, ⟨_, _, _, rfl, rfl, rfl⟩, ?_⟩
  intro h
  obtain ⟨problems, reason, hreport, -⟩ := h
  exact nomatch hreport

end BindingContext

end ConfigBinder
