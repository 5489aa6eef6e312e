/-
A startup meets what its build has prepared.

The build leaves two things to the startup: the plan, and the types that it supplies by
conversion.  They come from one walk over the injection points but by different roads.
The plan names the outer name of every type that must have a value.  The supplied types
lose their array levels, and of the types with one outer name only the first is kept.

So let a plan ask for a type.  If the built-in producer supplies it, it is a primitive
type or a class of the table, and is built in (`isSome_resolve_of_isSupplied`).  If not, the
first point that asks for a type of the same outer name has left its core among the supplied
types, unless the core is primitive.  That core need not be the one of the type in the plan, but
it is known, and with its array levels put back it has the plan's name.
-/
import ConfigBinder.CommandLine.Command
import ConfigBinder.Proofs.Binding.Run
import ConfigBinder.Proofs.Metadata.Snapshot
import ConfigBinder.Proofs.Startup.Recorder
import ConfigBinder.Proofs.Startup.Resolution

namespace ConfigBinder

open QualifiedName KnownTypes CommandLine

/-! ### The types of a startup without the application -/

/-- `standaloneTypes` makes known the types that the build supplies and those that were named. -/
theorem CommandLine.get?_standaloneTypes (o : BuildOutput) (known : List String) (name : String) :
    (standaloneTypes o known).custom.get? name =
      if name ∈ known ∨ ⟨name⟩ ∈ o.providedTypes then some .anything else none := by
  unfold standaloneTypes
  rw [get?_withImplicits, get?_withImplicits, get?_builtinOnly]
  have hmem : name ∈ o.providedTypes.members.map (·.text) ↔ ⟨name⟩ ∈ o.providedTypes := by
    rw [List.mem_map]
    refine ⟨?_, ?_⟩
    · intro h
      obtain ⟨provided, hprovided, rfl⟩ := h
      exact hprovided
    · intro h
      exact ⟨⟨name⟩, h, rfl⟩
  simp only [hmem]
  by_cases hknown : name ∈ known
  · simp [hknown]
  · simp [hknown]

/-- A core that is primitive or supplied by the build is known. -/
theorem CommandLine.isSome_resolve_core {o : BuildOutput} (known : List String) {t : TypeRef}
    (hname : endsInBrackets t.core.outerName.text = false)
    (h : t.core.isPrimitive = false → t.core.outerName ∈ o.providedTypes) :
    ((standaloneTypes o known).resolve t.core.outerName.text).isSome = true := by
  rw [resolve_of_not_endsInBrackets _ hname]
  cases hcore : t.core with
  | primitive p => exact isSome_element?_of_builtin? (isSome_builtin?_primitive p)
  | named n | applied n arguments =>
      rw [hcore] at h
      have hprovided : n ∈ o.providedTypes := h rfl
      have hget := get?_standaloneTypes o known n.text
      rw [if_pos (Or.inr hprovided)] at hget
      show ((standaloneTypes o known).element? n.text).isSome = true
      rw [element?_of_get?_eq_some hget]
      rfl
  | array e =>
      have harray := t.isArray_core
      rw [hcore] at harray
      exact Bool.noConfusion harray

/-! ### The types of the plan -/

/-- A type that `isSupplied` and is no wrapper of values that may be missing is built in. -/
theorem KnownTypes.isSome_resolve_of_isSupplied (known : KnownTypes) {t : TypeRef}
    (hs : t.isSupplied = true) (ho : t.isOptional = false) :
    (known.resolve t.outerName.text).isSome = true := by
  cases t with
  | primitive p =>
      have hres := known.resolve_of_not_endsInBrackets p.endsInBrackets_name
      show (known.resolve p.name).isSome = true
      rw [hres]
      exact isSome_element?_of_builtin? (isSome_builtin?_primitive p)
  | named n | applied n arguments =>
      have hmem : n.text ∈ TypeRef.suppliedClasses := List.contains_iff_mem.mp hs
      have hwrap : n.text ∉ TypeRef.optionalWrappers := by
        intro hw
        rw [TypeRef.isOptional, List.contains_iff_mem.mpr hw] at ho
        exact Bool.noConfusion ho
      show (known.resolve n.text).isSome = true
      rw [known.resolve_of_not_endsInBrackets
        (TypeRef.endsInBrackets_of_mem_suppliedClasses _ hmem)]
      exact isSome_element?_of_builtin? (isSome_builtin?_of_mem_suppliedClasses _ hmem hwrap)
  | array e => exact Bool.noConfusion hs

section

variable {context : BindingContext} {o : BuildOutput}

/-- Every type that a plan asks for is known to the startup, when no point asks for a
type whose core is named like an array. -/
theorem BindingContext.isSome_resolve_of_asks (hrun : context.run = .ok o)
    (hnames : ∀ p ∈ context.source.injectionPoints, p.isAsking context.settings = true →
      endsInBrackets p.requiredType.core.outerName.text = false)
    (known : List String) {property type : String}
    (h : o.plan.propertyTypes.Asks property type) :
    ((standaloneTypes o known).resolve type).isSome = true := by
  obtain ⟨p, hp, x, hx, -, rfl⟩ := (asks_of_run hrun).mp h
  obtain ⟨hask, htype, hopt⟩ := InjectionPoint.requiredType_of_checkedProperty? hx
  show ((standaloneTypes o known).resolve x.requiredType.outerName.text).isSome = true
  rw [htype]
  by_cases hs : p.requiredType.isSupplied = true
  · exact isSome_resolve_of_isSupplied _ hs hopt
  · have hneeds : p.needsProvider context.settings = true := by
      simp [InjectionPoint.needsProvider, hask, hs]
    -- The type kept for the outer name is that of the first point, not of this one.
    obtain ⟨before, q, after, hpoints, hq, hsame, hfirst⟩ := exists_first_of_run hrun hp hneeds
    have hqmem : q ∈ context.source.injectionPoints := by
      rw [hpoints]
      exact List.mem_append_right _ List.mem_cons_self
    have hqask : q.isAsking context.settings = true := by
      unfold InjectionPoint.needsProvider at hq
      exact (Bool.and_eq_true_iff.mp hq).1
    rw [← hsame, isSome_resolve_outerName]
    refine isSome_resolve_core known (hnames q hqmem hqask) ?_
    intro hprim
    exact (mem_providedTypes_of_run hrun).mpr
      ⟨before, q, after, hpoints, hq, hprim, rfl, hfirst⟩

end

namespace Snapshot

variable {s : Snapshot} {settings : Settings} {o : BuildOutput}

/-- In the output of a pass over a sound snapshot every mapping names an interface. -/
theorem interface_of_run (hsound : s.validate = .ok ()) (hrun : (s.context settings).run = .ok o)
    {m : MappingBinding} (hm : m ∈ o.plan.mappings) : m.interface.isBlank = false := by
  obtain ⟨loaded, hload⟩ := BindingContext.loads_of_run hrun hm
  have hload : s.source.loader m.interface = .ok loaded := hload
  unfold MetadataSource.loader at hload
  split at hload
  · rename_i c hc
    obtain ⟨hmem, hname⟩ := mem_classes_of_classEntry? hc
    rw [← hname]
    exact (validate_eq_ok_iff.mp hsound).1 c hmem
  · simp at hload

/-- **Build and startup agree.**  Over a sound snapshot none of whose property types has
a core that is named like an array, the replay of the plan that a pass hands over either
registers just the mappings of the plan, or reports values that are missing or do not
convert.  No type is unknown to it and no mapping is refused, whatever the values are and
whatever else is made known. -/
theorem replay_of_run (hsound : s.validate = .ok ())
    (hnames : ∀ p ∈ s.injectionPoints, p.isAsking settings = true →
      endsInBrackets p.requiredType.core.outerName.text = false)
    (hrun : (s.context settings).run = .ok o) (known : List String) (values : ConfigValues) :
    (∃ after, (Recorder.fresh (standaloneTypes o known).resolve values).replay o.plan =
        (after, .ok ()) ∧ after.registered = o.plan.mappings) ∨
      ∃ after problems, (Recorder.fresh (standaloneTypes o known).resolve values).replay o.plan =
          (after, .error (.invalidProperties problems)) ∧
        ∀ x ∈ problems, (∃ property type, x = .missing property type) ∨
          ∃ property type reason, x = .conversion property type reason := by
  rw [Recorder.replay_fresh_of_named fun m hm => interface_of_run hsound hrun hm]
  cases hproblems : o.plan.propertyTypes.problems (standaloneTypes o known).resolve values with
  | nil => exact Or.inl ⟨_, rfl, rfl⟩
  | cons first rest =>
      refine Or.inr ⟨_, first :: rest, rfl, ?_⟩
      intro x hx
      rw [← hproblems] at hx
      obtain ⟨property, type, hasks, hfind⟩ := PropertyTypes.mem_problems_iff.mp hx
      have hknown := BindingContext.isSome_resolve_of_asks hrun hnames known hasks
      rcases PropertyProblem.find?_of_isSome hknown hfind with hmissing | hconversion
      · exact Or.inl ⟨property, type, hmissing⟩
      · obtain ⟨reason, hreason⟩ := hconversion
        exact Or.inr ⟨property, type, reason, hreason⟩

/-- A program that asks for arrays of two types with one outer name and for a primitive
value, and declares a mapping. -/
def client : Snapshot where
  classes :=
    [⟨⟨"app.Client"⟩, none, false, []⟩,
      ⟨⟨"app.Server"⟩, none, true, [⟨"port", .primitive .int⟩]⟩]
  injectionPoints :=
    [⟨.field ⟨"app.Client"⟩ "hosts", .array (.applied ⟨"app.Host"⟩ [.named ⟨"app.Key"⟩]),
        [⟨Settings.default.propertyQualifier, ∅⟩], false⟩,
      ⟨.field ⟨"app.Client"⟩ "proxies", .array (.named ⟨"app.Host"⟩),
        [⟨Settings.default.propertyQualifier, ∅⟩], false⟩,
      ⟨.field ⟨"app.Client"⟩ "limit", .primitive .long,
        [⟨Settings.default.propertyQualifier, ∅⟩], false⟩]
  declarations :=
    [⟨⟨Settings.default.mappingAnnotation, .ofList [("prefix", "server")]⟩,
      .onClass ⟨"app.Server"⟩⟩]
  configRoots := []

/-- The build of that program meets its startup. -/
theorem replay_client :
    client.validate = .ok () ∧
      (∀ p ∈ client.injectionPoints, p.isAsking .default = true →
        endsInBrackets p.requiredType.core.outerName.text = false) ∧
      ∃ o, (client.context .default).run = .ok o ∧ ∀ known values,
        (∃ after, (Recorder.fresh (standaloneTypes o known).resolve values).replay o.plan =
            (after, .ok ()) ∧ after.registered = o.plan.mappings) ∨
          ∃ after problems,
            (Recorder.fresh (standaloneTypes o known).resolve values).replay o.plan =
                (after, .error (.invalidProperties problems)) ∧
              ∀ x ∈ problems, (∃ property type, x = .missing property type) ∨
                ∃ property type reason, x = .conversion property type reason := by
  have hsound : client.validate = .ok () := rfl
  have hnames : ∀ p ∈ client.injectionPoints, p.isAsking .default = true →
      endsInBrackets p.requiredType.core.outerName.text = false := by decide
  have hload : ∀ m ∈ ConfigMapping.declared
      (client.source.declarations Settings.default.mappingAnnotation),
      ∃ loaded, client.source.loader m.1 = .ok loaded := by
    intro m hm
    rw [List.mem_singleton.mp (show m ∈ [(⟨"app.Server"⟩, "server")] from hm)]
    exact ⟨_, rfl⟩
  obtain ⟨o, hrun⟩ := run_of_loads .default rfl hload
  exact ⟨hsound, hnames, o, hrun, replay_of_run hsound hnames hrun⟩

end Snapshot

end ConfigBinder
