/-
What a whole pass hands over.

A pass succeeds just when its analysis and its mappings do (`run_eq_ok_iff`), and then its
`output` is put together from the two: the types that need a provider, and what the
declarations of mappings add.  No stage adds to a kind of items that is read before it, so each
kind is told without the order of the stages.
-/
import ConfigBinder.Binding.Stage
import ConfigBinder.Proofs.Binding.Analysis
import ConfigBinder.Proofs.Binding.Collected
import ConfigBinder.Proofs.Binding.PropertyTypes

namespace ConfigBinder

/-! ### What declarations add

The statements are on one kind of items, given as a function of what is collected, so that each
of them serves all six kinds.
-/

namespace ConfigMapping

/-- What `bind` adds is the `contribution` of the mapping, and the interface loads. -/
theorem bind_ok {context : BindingContext} {interface : QualifiedName} {keyPrefix : String}
    {added : Collected} (h : bind context interface keyPrefix = .ok added) :
    (∃ loaded, context.loader interface = .ok loaded) ∧
      ∃ implementations,
        added = contribution context.settings interface keyPrefix implementations := by
  unfold bind at h
  split at h
  · simp at h
  · rename_i loaded hload
    refine ⟨⟨loaded, hload⟩, ?_⟩
    split at h
    · simp at h
    · simp at h
    · exact ⟨_, (Except.ok.inj h).symm⟩

/-- In a row of mappings none of which fails, each adds its own, and nothing else is
added.  The kind of items may be any that is joined as the collections are. -/
theorem mem_bindAll {context : BindingContext} {α : Type} (kind : Collected → List α)
    (hempty : kind ∅ = []) (happend : ∀ a b, kind (a ++ b) = kind a ++ kind b)
    (mappings : List (QualifiedName × String)) {x : α} :
    ∀ {added : Collected}, bindAll context mappings = (added, .ok ()) →
      (x ∈ kind added ↔ ∃ m ∈ mappings, ∃ own, bind context m.1 m.2 = .ok own ∧ x ∈ kind own) := by
  induction mappings with
  | nil =>
      intro added h
      obtain ⟨rfl, -⟩ := Prod.mk.inj h
      simp [hempty]
  | cons m rest ih =>
      intro added h
      obtain ⟨interface, keyPrefix⟩ := m
      rw [bindAll] at h
      cases hb : bind context interface keyPrefix with
      | error e => simp [hb] at h
      | ok own =>
          simp only [hb, Prod.mk.injEq] at h
          obtain ⟨rfl, hrest⟩ := h
          rw [happend, List.mem_append, ih (Prod.ext rfl hrest), List.exists_mem_cons_iff]
          simp [hb]

theorem binds_of_bindAll {context : BindingContext} (mappings : List (QualifiedName × String)) :
    ∀ {added : Collected}, bindAll context mappings = (added, .ok ()) →
      ∀ m ∈ mappings, ∃ own, bind context m.1 m.2 = .ok own := by
  induction mappings with
  | nil => intro added _ m hm; exact nomatch hm
  | cons d rest ih =>
      intro added h m hm
      obtain ⟨interface, keyPrefix⟩ := d
      rw [bindAll] at h
      cases hb : bind context interface keyPrefix with
      | error e => simp [hb] at h
      | ok own =>
          simp only [hb, Prod.mk.injEq] at h
          rcases List.mem_cons.mp hm with rfl | hm
          · exact ⟨own, hb⟩
          · exact ih (Prod.ext rfl h.2) m hm

/-- What `bindAll` adds is part of a `contribution`, to an interface that loads. -/
theorem exists_contribution_of_bindAll {context : BindingContext} {α : Type}
    (kind : Collected → List α) (hempty : kind ∅ = [])
    (happend : ∀ a b, kind (a ++ b) = kind a ++ kind b)
    {mappings : List (QualifiedName × String)} {added : Collected} {x : α}
    (h : bindAll context mappings = (added, .ok ())) (hx : x ∈ kind added) :
    ∃ (m : QualifiedName × String) (implementations : List Implementation),
      (∃ loaded, context.loader m.1 = .ok loaded) ∧
        x ∈ kind (contribution context.settings m.1 m.2 implementations) := by
  obtain ⟨m, -, own, hown, hmem⟩ := (mem_bindAll kind hempty happend mappings h).mp hx
  obtain ⟨hload, implementations, rfl⟩ := bind_ok hown
  exact ⟨m, implementations, hload, hmem⟩

/-- A kind of items that no `contribution` has is never added, whether a mapping fails or not. -/
theorem kind_bindAll_eq_nil {context : BindingContext} {α : Type} (kind : Collected → List α)
    (hempty : kind ∅ = []) (happend : ∀ a b, kind (a ++ b) = kind a ++ kind b)
    (hnone : ∀ settings interface keyPrefix implementations,
      kind (contribution settings interface keyPrefix implementations) = [])
    (mappings : List (QualifiedName × String)) : kind (bindAll context mappings).1 = [] := by
  induction mappings with
  | nil => exact hempty
  | cons m rest ih =>
      obtain ⟨interface, keyPrefix⟩ := m
      rw [bindAll]
      cases hb : bind context interface keyPrefix with
      | error e => exact hempty
      | ok own =>
          obtain ⟨-, implementations, rfl⟩ := bind_ok hb
          simp only [happend, hnone, ih, List.append_nil]

/-- What `bindAll` adds when no mapping fails. -/
theorem bindAll_ok (context : BindingContext) (mappings : List (QualifiedName × String)) :
    ∀ {added : Collected}, bindAll context mappings = (added, .ok ()) →
      added.additional = [] ∧ added.properties = [] ∧
        (∀ x ∈ added.synthetic, x.isOfMapping = true) ∧
        ∀ m ∈ added.mappings, ∃ loaded, context.loader m.interface = .ok loaded := by
  intro added h
  have hadded : (bindAll context mappings).1 = added := by rw [h]
  refine ⟨?_, ?_, ?_, ?_⟩
  · rw [← hadded]
    exact kind_bindAll_eq_nil (·.additional) rfl (fun _ _ => rfl) (fun _ _ _ _ => rfl) mappings
  · rw [← hadded]
    exact kind_bindAll_eq_nil (·.properties) rfl (fun _ _ => rfl) (fun _ _ _ _ => rfl) mappings
  · intro x hx
    obtain ⟨m, implementations, -, hmem⟩ :=
      exists_contribution_of_bindAll (·.synthetic) rfl (fun _ _ => rfl) h hx
    rw [List.mem_singleton.mp hmem]
    rfl
  · intro x hx
    obtain ⟨m, implementations, hload, hmem⟩ :=
      exists_contribution_of_bindAll (·.mappings) rfl (fun _ _ => rfl) h hx
    rw [List.mem_singleton.mp hmem]
    exact hload

end ConfigMapping

/-! ### The output -/

/-- What a pass hands over, from the types that need a provider and what the mappings
add. -/
def BindingContext.output (context : BindingContext) (found : Unsupplied) (added : Collected) :
    BuildOutput :=
  let properties := (analyze context.settings context.source).1
  { items :=
      { additional := [⟨context.settings.producerComponent⟩]
        synthetic := found.types.map (Provider.component context.settings) ++
          (RootComponent.ofRoots context.source.configRoots ++ added.synthetic)
        reflective := Provider.reflective found.types ++
          (ConfigProperty.reflective properties ++ added.reflective)
        generated := added.generated
        properties := properties
        mappings := added.mappings }
    plan := .ofMappings (ConfigProperty.group properties) added.mappings }

theorem Stage.analysisItems_of_ok {context : BindingContext} {found : Unsupplied}
    (h : (analyze context.settings context.source).2 = .ok found) :
    analysisItems context =
      ({ Provider.register context.settings found.types with
          properties := (analyze context.settings context.source).1 }, .ok ()) := by
  unfold analysisItems
  split
  · rename_i properties found' heq
    rw [heq] at h ⊢
    rw [Except.ok.inj h]
  · rename_i properties e heq
    rw [heq] at h
    simp at h

theorem Stage.analysisItems_of_error {context : BindingContext} {e : BindingError}
    (h : (analyze context.settings context.source).2 = .error e) :
    (analysisItems context).2 = .error e := by
  unfold analysisItems
  split
  · rename_i properties found' heq
    rw [heq] at h
    simp at h
  · rename_i properties e' heq
    rw [heq] at h
    rw [← Except.error.inj h]

namespace BindingContext

variable {context : BindingContext}

/-- A pass whose analysis fails has the error of the analysis. -/
theorem run_of_analysis_error {e : BindingError}
    (h : (analyze context.settings context.source).2 = .error e) : context.run = .error e := by
  unfold run
  simp [Stage.analysisItems_of_error h, bind, Except.bind]

/-- A pass whose mappings fail has their error. -/
theorem run_of_mappings_error {found : Unsupplied} {e : BindingError}
    (ha : (analyze context.settings context.source).2 = .ok found)
    (hg : (ConfigMapping.generate context).2 = .error e) : context.run = .error e := by
  unfold run
  rw [Stage.analysisItems_of_ok ha]
  simp [hg, bind, Except.bind]

/-- A pass whose analysis and mappings succeed hands over the `output` of what they found. -/
theorem run_of_ok {found : Unsupplied} {added : Collected}
    (ha : (analyze context.settings context.source).2 = .ok found)
    (hg : ConfigMapping.generate context = (added, .ok ())) :
    context.run = .ok (context.output found added) := by
  obtain ⟨hadd, hprop, -, -⟩ := ConfigMapping.bindAll_ok context _ hg
  unfold run
  rw [Stage.analysisItems_of_ok ha, hg]
  simp [bind, Except.bind, pure, Except.pure, Stage.run, Stage.contribution, output,
    Provider.register, Collected.append_def, Collected.append, hadd, hprop]

/-- A pass succeeds just when its analysis and its mappings do. -/
theorem run_eq_ok_iff {o : BuildOutput} :
    context.run = .ok o ↔ ∃ found added,
      (analyze context.settings context.source).2 = .ok found ∧
        ConfigMapping.generate context = (added, .ok ()) ∧ o = context.output found added := by
  refine ⟨?_, ?_⟩
  · intro h
    cases ha : (analyze context.settings context.source).2 with
    | error e =>
        rw [run_of_analysis_error ha] at h
        exact nomatch h
    | ok found =>
        rcases hg : ConfigMapping.generate context with ⟨added, outcome⟩
        cases outcome with
        | error e =>
            have hfailed : (ConfigMapping.generate context).2 = .error e := by rw [hg]
            rw [run_of_mappings_error ha hfailed] at h
            exact nomatch h
        | ok done =>
            rw [run_of_ok ha hg] at h
            exact ⟨found, added, rfl, rfl, (Except.ok.inj h).symm⟩
  · intro h
    obtain ⟨found, added, ha, hg, rfl⟩ := h
    exact run_of_ok ha hg

end BindingContext

/-! ### What a startup reads of the output

A startup reads two things, the plan and the types that are supplied by conversion.  Both are
told by the injection points: `asks_of_run` for the one and `Provides` for the other.
-/

/-- Some point asks for a type that needs a provider and whose core, no primitive type,
has the name, and no point before it asks for a type of the same outer name. -/
def BindingContext.Provides (context : BindingContext) (name : QualifiedName) : Prop :=
  ∃ before p after, context.source.injectionPoints = before ++ p :: after ∧
    p.needsProvider context.settings = true ∧ p.requiredType.core.isPrimitive = false ∧
    p.requiredType.core.outerName = name ∧
    ∀ q ∈ before, q.needsProvider context.settings = true →
      q.requiredType.outerName ≠ p.requiredType.outerName

namespace BuildOutput

private theorem providedBy_of_isOfMapping {c : Component} (h : c.isOfMapping = true) :
    providedBy c = none := by
  unfold Component.isOfMapping at h
  unfold providedBy
  split at h
  · rename_i hc
    rw [hc]
  · exact Bool.noConfusion h

private theorem providedBy_of_mem_ofRoots {roots : List ConfigRoot} {c : Component}
    (h : c ∈ RootComponent.ofRoots roots) : providedBy c = none := by
  obtain ⟨root, -, hroot⟩ := List.mem_filterMap.mp h
  unfold RootComponent.ofRoot? at hroot
  split at hroot
  · rw [← Option.some.inj hroot]
    rfl
  · simp at hroot

private theorem providedBy_component (settings : Settings) (t : TypeRef) :
    providedBy (Provider.component settings t) =
      if t.core.isPrimitive then none else some t.core.outerName := rfl

end BuildOutput

namespace BindingContext

variable {context : BindingContext} {o : BuildOutput}

theorem mem_properties_of_run (h : context.run = .ok o) {x : ConfigProperty} :
    x ∈ o.items.properties ↔ ∃ p ∈ context.source.injectionPoints,
      p.checkedProperty? context.settings context.source = some x := by
  obtain ⟨found, added, ha, -, rfl⟩ := run_eq_ok_iff.mp h
  show x ∈ (analyze context.settings context.source).1 ↔ _
  rw [(analyze_of_ok ha).1, List.mem_filterMap]

/-- The plan is the `group` of the properties and binds the mappings. -/
theorem plan_of_run (h : context.run = .ok o) :
    o.plan = .ofMappings (ConfigProperty.group o.items.properties) o.items.mappings := by
  obtain ⟨found, added, -, -, rfl⟩ := run_eq_ok_iff.mp h
  rfl

/-- The plan `Asks` for the properties of the points that must have a value. -/
theorem asks_of_run (h : context.run = .ok o) {property type : String} :
    o.plan.propertyTypes.Asks property type ↔ ∃ p ∈ context.source.injectionPoints, ∃ x,
      p.checkedProperty? context.settings context.source = some x ∧
        x.name = property ∧ x.typeName = type := by
  -- the plan is made of the properties collected, so the points decide it through those
  rw [plan_of_run h]
  show (ConfigProperty.group o.items.properties).Asks _ _ ↔ _
  rw [ConfigProperty.asks_group]
  simp only [mem_properties_of_run h]
  refine ⟨?_, ?_⟩
  · intro h
    obtain ⟨x, ⟨p, hp, hprop⟩, hname, htype⟩ := h
    exact ⟨p, hp, x, hprop, hname, htype⟩
  · intro h
    obtain ⟨p, hp, x, hprop, hname, htype⟩ := h
    exact ⟨x, ⟨p, hp, hprop⟩, hname, htype⟩

/-- A name is in `providedTypes` just when the points say so (`Provides`). -/
theorem mem_providedTypes_of_run (h : context.run = .ok o) {name : QualifiedName} :
    name ∈ o.providedTypes ↔ context.Provides name := by
  obtain ⟨found, added, ha, hg, rfl⟩ := run_eq_ok_iff.mp h
  obtain ⟨-, -, hmapped, -⟩ := ConfigMapping.bindAll_ok context _ hg
  rw [BuildOutput.providedTypes, OrderedSet.mem_ofList]
  show name ∈ (found.types.map (Provider.component context.settings) ++
    (RootComponent.ofRoots context.source.configRoots ++ added.synthetic)).filterMap
      BuildOutput.providedBy ↔ _
  have hroots : (RootComponent.ofRoots context.source.configRoots).filterMap
      BuildOutput.providedBy = [] :=
    List.filterMap_eq_nil_iff.mpr fun c hc => BuildOutput.providedBy_of_mem_ofRoots hc
  have hadded : added.synthetic.filterMap BuildOutput.providedBy = [] :=
    List.filterMap_eq_nil_iff.mpr fun c hc =>
      BuildOutput.providedBy_of_isOfMapping (hmapped c hc)
  rw [List.filterMap_append, List.filterMap_append, hroots, hadded, List.append_nil,
    List.append_nil, List.filterMap_map, List.mem_filterMap]
  simp only [Function.comp_apply, BuildOutput.providedBy_component]
  refine ⟨?_, ?_⟩
  · intro h
    obtain ⟨t, ht, hname⟩ := h
    obtain ⟨before, p, after, hpoints, hneeds, rfl, hfirst⟩ := (mem_types_of_analyze ha).mp ht
    cases hprim : p.requiredType.core.isPrimitive with
    | true => simp [hprim] at hname
    | false =>
        refine ⟨before, p, after, hpoints, hneeds, hprim, ?_, hfirst⟩
        simpa [hprim] using hname
  · intro h
    obtain ⟨before, p, after, hpoints, hneeds, hprim, hname, hfirst⟩ := h
    refine ⟨p.requiredType,
      (mem_types_of_analyze ha).mpr ⟨before, p, after, hpoints, hneeds, rfl, hfirst⟩, ?_⟩
    rw [hprim, hname]
    rfl

/-- Of the points that ask for a type of one outer name there is a first. -/
theorem exists_first_of_run (h : context.run = .ok o) {p : InjectionPoint}
    (hp : p ∈ context.source.injectionPoints)
    (hneeds : p.needsProvider context.settings = true) :
    ∃ before q after, context.source.injectionPoints = before ++ q :: after ∧
      q.needsProvider context.settings = true ∧
      q.requiredType.outerName = p.requiredType.outerName ∧
      ∀ x ∈ before, x.needsProvider context.settings = true →
        x.requiredType.outerName ≠ q.requiredType.outerName := by
  obtain ⟨found, added, ha, -, -⟩ := run_eq_ok_iff.mp h
  obtain ⟨t, ht, hname⟩ := Unsupplied.covers_iff.mp (covers_of_analyze ha hp hneeds)
  obtain ⟨before, q, after, hpoints, hq, rfl, hfirst⟩ := (mem_types_of_analyze ha).mp ht
  exact ⟨before, q, after, hpoints, hq, hname, hfirst⟩

/-- Every mapping of the plan has an interface that loads. -/
theorem loads_of_run (h : context.run = .ok o) {m : MappingBinding} (hm : m ∈ o.plan.mappings) :
    ∃ loaded, context.loader m.interface = .ok loaded := by
  obtain ⟨found, added, -, hg, rfl⟩ := run_eq_ok_iff.mp h
  obtain ⟨-, -, -, hload⟩ := ConfigMapping.bindAll_ok context _ hg
  obtain ⟨mapping, hmem, rfl⟩ := List.mem_map.mp (OrderedSet.mem_ofList.mp hm)
  exact hload mapping hmem

end BindingContext

/-! ### The mappings of a snapshot -/

theorem MappingGroup.ofMapping_eq_cons (names : List QualifiedName) (loader : ClassLoader)
    (root : LoadedClass) (keyPrefix : String) :
    ∃ inner, ofMapping names loader root keyPrefix = ⟨root, keyPrefix⟩ :: inner := by
  unfold ofMapping
  rw [walk, dif_pos List.mem_cons_self]
  exact ⟨_, rfl⟩

namespace Snapshot

variable {s : Snapshot} (settings : Settings)

/-- Manifests are always made, so a declared interface is bound as soon as it loads. -/
theorem bind_of_loads {interface : QualifiedName} {loaded : LoadedClass} (keyPrefix : String)
    (hload : s.source.loader interface = .ok loaded) :
    ∃ added, ConfigMapping.bind (s.context settings) interface keyPrefix = .ok added := by
  have hload : (s.context settings).loader interface = .ok loaded := hload
  obtain ⟨inner, hgroups⟩ := MappingGroup.ofMapping_eq_cons (s.classes.map (·.name))
    s.source.loader loaded keyPrefix
  have hemit : (s.context settings).emitter loaded keyPrefix =
      .ok ((⟨loaded, keyPrefix⟩ :: inner).map MappingGroup.implementation) := by
    rw [← hgroups]
    rfl
  unfold ConfigMapping.bind
  rw [hload]
  simp only [hemit, List.map_cons]
  exact ⟨_, rfl⟩

/-- The mappings of a snapshot succeed when every interface they name loads. -/
theorem bindAll_of_loads (mappings : List (QualifiedName × String))
    (hload : ∀ m ∈ mappings, ∃ loaded, s.source.loader m.1 = .ok loaded) :
    ∃ added, ConfigMapping.bindAll (s.context settings) mappings = (added, .ok ()) := by
  induction mappings with
  | nil => exact ⟨∅, rfl⟩
  | cons m rest ih =>
      obtain ⟨loaded, hloaded⟩ := hload m List.mem_cons_self
      obtain ⟨own, hown⟩ := bind_of_loads settings m.2 hloaded
      obtain ⟨others, hothers⟩ := ih fun x hx => hload x (List.mem_cons_of_mem _ hx)
      refine ⟨own ++ others, ?_⟩
      rw [ConfigMapping.bindAll, hown, hothers]

/-- A pass over a snapshot succeeds when its analysis does and every interface that a
declaration names loads. -/
theorem run_of_loads {found : Unsupplied}
    (ha : (analyze settings s.source).2 = .ok found)
    (hload : ∀ m ∈ ConfigMapping.declared (s.source.declarations settings.mappingAnnotation),
      ∃ loaded, s.source.loader m.1 = .ok loaded) :
    ∃ o, (s.context settings).run = .ok o := by
  obtain ⟨added, hadded⟩ := bindAll_of_loads settings _ hload
  exact ⟨_, BindingContext.run_of_ok ha hadded⟩

end Snapshot

end ConfigBinder
