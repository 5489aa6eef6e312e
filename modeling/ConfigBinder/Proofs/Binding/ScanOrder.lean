/-
A pass over points and declarations in another order.

A scan of a program finds its points and declarations in some order, and may find one more
than once.  Both lists are walked, so each list of an output stands in an order that the
scan has decided; which of two types of one outer name gets the provider is decided by it
as well.  Nothing else is: outputs over the `SameScan` have the `SameSets`.  Each kind of items
is told by membership, by what single points and declarations ask for, and the plan is made of
sets that are told by their members.
-/
import ConfigBinder.Proofs.Binding.Generated
import ConfigBinder.Proofs.Binding.Providers

namespace ConfigBinder

/-! ### What an output holds -/

namespace BindingContext

variable {context : BindingContext} {o : BuildOutput}

theorem mem_requiredTypes_of_run (hrun : context.run = .ok o) {value : Option ParamValue} :
    value ∈ o.providers.map (·.param? Provider.requiredTypeParam) ↔
      ∃ p ∈ context.source.injectionPoints, p.needsProvider context.settings = true ∧
        value = some (.text p.requiredType.outerName.text) := by
  rw [providers_eq_of_run hrun, List.map_map, List.mem_map]
  simp only [Function.comp_apply, (Provider.component_supplies _ _).parameter]
  refine ⟨?_, ?_⟩
  · intro h
    obtain ⟨t, ht, rfl⟩ := h
    obtain ⟨p, hp, hneeds, hname⟩ := exists_kept_iff.mp ⟨t, ht, rfl⟩
    exact ⟨p, hp, hneeds, by rw [hname]⟩
  · intro h
    obtain ⟨p, hp, hneeds, rfl⟩ := h
    obtain ⟨t, ht, hname⟩ := exists_kept_iff.mpr ⟨p, hp, hneeds, rfl⟩
    exact ⟨t, ht, by rw [hname]⟩

end BindingContext

/-- Plans are alike for properties and mappings in any order and repetition. -/
theorem StartupPlan.ofMappings_congr {xs ys : List ConfigProperty} {ms ns : List ConfigMapping}
    (hproperties : ∀ x, x ∈ xs ↔ x ∈ ys) (hmappings : ∀ m, m ∈ ms ↔ m ∈ ns) :
    ofMappings (ConfigProperty.group xs) ms = ofMappings (ConfigProperty.group ys) ns := by
  have hbindings : MappingBinding.ofMappings ms = MappingBinding.ofMappings ns := by
    refine OrderedSet.ext_mem ?_
    intro b
    simp only [MappingBinding.ofMappings, OrderedSet.mem_ofList, List.mem_map, hmappings]
  rw [ofMappings, ofMappings, ConfigProperty.group_congr hproperties, hbindings]

namespace Snapshot

variable {s t : Snapshot} {settings : Settings} {o a b : BuildOutput}

theorem mem_mappings_of_run (hrun : (s.context settings).run = .ok o) {x : ConfigMapping} :
    x ∈ o.items.mappings ↔
      ∃ m ∈ s.mappings settings, x ∈ (s.itemsOf settings m).mappings := by
  obtain ⟨found, added, -, hg, rfl⟩ := BindingContext.run_eq_ok_iff.mp hrun
  show x ∈ added.mappings ↔ _
  exact mem_generate (·.mappings) rfl (fun _ _ => rfl) hg

private theorem lookupOnly_not_mem_itemsOf (m : QualifiedName × String) (name : String) :
    ReflectiveClass.lookupOnly name ∉ (s.itemsOf settings m).reflective := by
  intro h
  obtain ⟨i, -, hi⟩ := List.mem_flatMap.mp h
  simp [ConfigMapping.reflective, ReflectiveClass.lookupOnly, ReflectiveClass.withMethods,
    ReflectiveClass.withConstructors] at hi

private theorem lookupOnly_not_mem_providers (types : List TypeRef) (name : String) :
    ReflectiveClass.lookupOnly name ∉ Provider.reflective types := by
  intro h
  obtain ⟨t, -, ht⟩ := List.mem_map.mp h
  simp [ReflectiveClass.lookupOnly, ReflectiveClass.withConstructors] at ht

/-- The classes that are `lookupOnly` are the types of the properties to check that are not
primitive. -/
theorem mem_lookups_of_run (hrun : (s.context settings).run = .ok o) {name : String} :
    ReflectiveClass.lookupOnly name ∈ o.items.reflective ↔
      ∃ x ∈ o.items.properties, x.requiredType.isPrimitive = false ∧ x.typeName = name := by
  obtain ⟨found, added, -, hg, rfl⟩ := BindingContext.run_eq_ok_iff.mp hrun
  have hadded : ReflectiveClass.lookupOnly name ∉ added.reflective := by
    intro h
    obtain ⟨m, -, hm⟩ := (mem_generate (·.reflective) rfl (fun _ _ => rfl) hg).mp h
    exact lookupOnly_not_mem_itemsOf m name hm
  show _ ∈ _ ++ (ConfigProperty.reflective _ ++ added.reflective) ↔ _
  rw [List.mem_append, List.mem_append]
  simp only [lookupOnly_not_mem_providers, hadded, false_or, or_false]
  rw [ConfigProperty.reflective, List.mem_map]
  simp only [ReflectiveClass.lookupOnly, ReflectiveClass.mk.injEq, and_true, exists_eq_right]
  rw [ConfigProperty.mem_lookedUp]
  simp only [List.not_mem_nil, not_false_eq_true, true_and]
  rfl

/-! ### Two scans of one program

`SameScan` keeps the classes as they stand, so all that is looked up by name stays the same, and
with it what each point and each declaration brings.
-/

/-- The same points and declarations in any order and repetition, over the same classes and
the same roots. -/
structure SameScan (s t : Snapshot) : Prop where
  classes : s.classes = t.classes
  configRoots : s.configRoots = t.configRoots
  injectionPoints : ∀ p, p ∈ s.injectionPoints ↔ p ∈ t.injectionPoints
  declarations : ∀ d, d ∈ s.declarations ↔ d ∈ t.declarations

namespace SameScan

theorem symm (h : s.SameScan t) : t.SameScan s where
  classes := h.classes.symm
  configRoots := h.configRoots.symm
  injectionPoints p := (h.injectionPoints p).symm
  declarations d := (h.declarations d).symm

theorem classEntry? (h : s.SameScan t) : s.source.classEntry? = t.source.classEntry? := by
  funext name
  show s.classes.find? _ = t.classes.find? _
  rw [h.classes]

theorem loader (h : s.SameScan t) : s.source.loader = t.source.loader := by
  funext name
  rw [MetadataSource.loader, MetadataSource.loader, h.classEntry?]

theorem checkedProperty? (h : s.SameScan t) (settings : Settings) (p : InjectionPoint) :
    p.checkedProperty? settings s.source = p.checkedProperty? settings t.source := by
  simp only [InjectionPoint.checkedProperty?, classify, classifyQualified, derivedPropertyName,
    h.classEntry?]

theorem groupsOf (h : s.SameScan t) (m : QualifiedName × String) :
    s.groupsOf m = t.groupsOf m := by
  rw [Snapshot.groupsOf, Snapshot.groupsOf, h.classes, h.loader]

theorem itemsOf (h : s.SameScan t) (settings : Settings) (m : QualifiedName × String) :
    s.itemsOf settings m = t.itemsOf settings m := by
  rw [Snapshot.itemsOf, Snapshot.itemsOf, h.groupsOf]

theorem mem_mappings (h : s.SameScan t) {m : QualifiedName × String} :
    m ∈ s.mappings settings ↔ m ∈ t.mappings settings := by
  rw [mappings, mappings, declared_eq_filterMap, declared_eq_filterMap, List.mem_filterMap,
    List.mem_filterMap]
  simp only [h.declarations]

/-- Whether a pass succeeds is decided by no order. -/
theorem run_succeeds (h : s.SameScan t) (hrun : ∃ a, (s.context settings).run = .ok a) :
    ∃ b, (t.context settings).run = .ok b := by
  obtain ⟨hpoints, hdeclared⟩ := run_succeeds_iff.mp hrun
  refine run_succeeds_iff.mpr ⟨?_, ?_⟩
  · intro p hp
    exact hpoints p ((h.injectionPoints p).mpr hp)
  · intro d hd name hmissing
    obtain ⟨hannotated, htarget, hnone⟩ := hmissing
    exact hdeclared d ((h.declarations d).mpr hd) name
      ⟨hannotated, htarget, fun c hc => hnone c (h.classes ▸ hc)⟩

end SameScan

end Snapshot

/-- Outputs with one plan and the same sets of items.  The order of the items is left open,
and so is which type of an outer name is provided. -/
structure BuildOutput.SameSets (a b : BuildOutput) : Prop where
  plan : a.plan = b.plan
  properties : ∀ x, x ∈ a.items.properties ↔ x ∈ b.items.properties
  /-- The names of the types to convert to. -/
  requiredTypes : ∀ value,
    value ∈ a.providers.map (·.param? Provider.requiredTypeParam) ↔
      value ∈ b.providers.map (·.param? Provider.requiredTypeParam)
  /-- The classes of neither constructors nor methods. -/
  lookups : ∀ name, ReflectiveClass.lookupOnly name ∈ a.items.reflective ↔
    ReflectiveClass.lookupOnly name ∈ b.items.reflective
  generated : ∀ x, x ∈ a.items.generated ↔ x ∈ b.items.generated
  mappings : ∀ x, x ∈ a.items.mappings ↔ x ∈ b.items.mappings

namespace Snapshot

variable {s t : Snapshot} {settings : Settings} {a b : BuildOutput}

theorem SameScan.sameSets (h : s.SameScan t) (ha : (s.context settings).run = .ok a)
    (hb : (t.context settings).run = .ok b) : a.SameSets b := by
  have hproperties : ∀ x, x ∈ a.items.properties ↔ x ∈ b.items.properties := by
    intro x
    rw [BindingContext.mem_properties_of_run ha, BindingContext.mem_properties_of_run hb]
    refine exists_congr fun p => and_congr (h.injectionPoints p) ?_
    show p.checkedProperty? settings s.source = _ ↔ p.checkedProperty? settings t.source = _
    rw [h.checkedProperty?]
  have hmappings : ∀ x, x ∈ a.items.mappings ↔ x ∈ b.items.mappings := by
    intro x
    rw [mem_mappings_of_run ha, mem_mappings_of_run hb]
    simp only [h.mem_mappings, h.itemsOf]
  refine ⟨?_, hproperties, ?_, ?_, ?_, hmappings⟩
  · -- the plan reads the properties and the mappings as sets
    rw [BindingContext.plan_of_run ha, BindingContext.plan_of_run hb]
    exact StartupPlan.ofMappings_congr hproperties hmappings
  · intro value
    rw [BindingContext.mem_requiredTypes_of_run ha, BindingContext.mem_requiredTypes_of_run hb]
    exact exists_congr fun p => and_congr_left fun _ => h.injectionPoints p
  · intro name
    rw [mem_lookups_of_run ha, mem_lookups_of_run hb]
    simp only [hproperties]
  · intro x
    rw [mem_generated_of_run ha, mem_generated_of_run hb]
    simp only [h.mem_mappings, h.groupsOf]

/-- **The order and the repetition of a scan do not decide how a program starts**: a pass
succeeds over both of two scans or over neither, and then both outputs have one plan and
the same sets of items. -/
theorem run_of_sameScan (h : s.SameScan t) :
    ((∃ a, (s.context settings).run = .ok a) ↔ ∃ b, (t.context settings).run = .ok b) ∧
      ∀ a b, (s.context settings).run = .ok a → (t.context settings).run = .ok b →
        a.SameSets b := by
  refine ⟨⟨h.run_succeeds, h.symm.run_succeeds⟩, ?_⟩
  intro a b ha hb
  exact h.sameSets ha hb

/-- A second scan, which meets the points and declarations from the end and then again. -/
def rescan (s : Snapshot) : Snapshot :=
  { s with
    injectionPoints := s.injectionPoints.reverse ++ s.injectionPoints
    declarations := s.declarations.reverse ++ s.declarations }

private theorem sameScan_rescan (s : Snapshot) : s.SameScan s.rescan where
  classes := rfl
  configRoots := rfl
  injectionPoints p := by simp [rescan]
  declarations d := by simp [rescan]

/-- A program that asks for two applications of one class and maps two interfaces. -/
def lockers : Snapshot where
  classes := [⟨⟨"app.Server"⟩, none, true, []⟩, ⟨⟨"app.Client"⟩, none, true, []⟩]
  injectionPoints :=
    let asks : List Annotation := [⟨Settings.default.propertyQualifier, ∅⟩]
    [⟨.field ⟨"app.Main"⟩ "key", .applied ⟨"app.Box"⟩ [.named ⟨"app.Key"⟩], asks, false⟩,
      ⟨.field ⟨"app.Main"⟩ "lock", .applied ⟨"app.Box"⟩ [.named ⟨"app.Lock"⟩], asks, false⟩]
  declarations :=
    [⟨⟨Settings.default.mappingAnnotation, ∅⟩, .onClass ⟨"app.Server"⟩⟩,
      ⟨⟨Settings.default.mappingAnnotation, ∅⟩, .onClass ⟨"app.Client"⟩⟩]
  configRoots := []

private theorem run_lockers : ∃ o, (lockers.context .default).run = .ok o := by
  refine run_succeeds_iff.mpr ⟨?_, ?_⟩
  · simp [lockers, InjectionPoint.IsMisplaced]
  · simp [lockers, MapsMissing]

/-- The second scan of that program comes to the other application first, which is then the
one that is provided, and all else is the same. -/
theorem run_rescan_lockers :
    ∃ a b, (lockers.context .default).run = .ok a ∧
      (lockers.rescan.context .default).run = .ok b ∧ a.SameSets b ∧
      a.providers.map (·.providerType) = [.applied ⟨"app.Box"⟩ [.named ⟨"app.Key"⟩]] ∧
      b.providers.map (·.providerType) = [.applied ⟨"app.Box"⟩ [.named ⟨"app.Lock"⟩]] := by
  have hsame := @run_of_sameScan lockers lockers.rescan .default (sameScan_rescan lockers)
  obtain ⟨a, ha⟩ := run_lockers
  obtain ⟨b, hb⟩ := hsame.1.mp ⟨a, ha⟩
  refine ⟨a, b, ha, hb, hsame.2 a b ha hb, ?_, ?_⟩
  · rw [BindingContext.providers_eq_of_run ha]
    rfl
  · rw [BindingContext.providers_eq_of_run hb]
    rfl

end Snapshot

end ConfigBinder
