/-
One provider for each outer name.

The types that need a provider are kept by outer name, and the providers are made of them
one by one.  So the providers of an output are told by positions: the points that stand
`IsFirstAt` theirs, which need a provider and are the first to do so under the outer name of
their type, in the order of the points.  No other stage adds a component that `isConverting`,
though roots and mappings add components of their own to the same list.
-/
import ConfigBinder.Proofs.Binding.Run
import Mathlib.Data.List.Induction
import Mathlib.Data.List.Nodup

namespace ConfigBinder

open InjectionPoint

/-! ### Providers among the components -/

/-- Whether the component converts a value. -/
def Component.isConverting (c : Component) : Bool :=
  match c.creator with
  | .bean _ => true
  | _ => false

/-- The components of an output that are `isConverting`. -/
def BuildOutput.providers (o : BuildOutput) : List Component :=
  o.items.synthetic.filter (·.isConverting)

/-- The component supplies the type and nothing else, under the qualifier of properties
and no other. -/
structure Component.Supplies (settings : Settings) (c : Component) (t : TypeRef) : Prop where
  parameter : c.param? Provider.requiredTypeParam = some (.text t.outerName.text)
  providerType : c.providerType = t
  types : c.types = [t]
  qualifiers : c.qualifiers = [settings.propertyQualifier]
  creator : c.creator = .bean settings.beanCreator
  /-- An array has no class of its own, the converting creator stands in for it. -/
  implementation : c.implementation = if t.isArray then settings.beanCreator else t.outerName

theorem Provider.component_supplies (settings : Settings) (t : TypeRef) :
    (component settings t).Supplies settings t where
  parameter := by
    simp [component, Component.build, Component.Draft.step, Component.Draft.start,
      Component.Draft.finish, Component.param?, OrderedMap.get?_insert]
  providerType := rfl
  types := rfl
  qualifiers := rfl
  creator := rfl
  implementation := rfl

theorem Component.not_isConverting_of_isOfMapping {c : Component} (h : c.isOfMapping = true) :
    c.isConverting = false := by
  unfold isOfMapping at h
  unfold isConverting
  split at h
  · rename_i hc
    rw [hc]
  · exact Bool.noConfusion h

theorem RootComponent.not_isConverting_of_mem_ofRoots {roots : List ConfigRoot} {c : Component}
    (h : c ∈ ofRoots roots) : c.isConverting = false := by
  obtain ⟨root, -, hroot⟩ := List.mem_filterMap.mp h
  unfold ofRoot? at hroot
  split at hroot
  · rw [← Option.some.inj hroot]
    rfl
  · simp at hroot

theorem BindingContext.providers_output {context : BindingContext} {found : Unsupplied}
    {added : Collected} (hg : ConfigMapping.generate context = (added, .ok ())) :
    (context.output found added).providers =
      found.types.map (Provider.component context.settings) := by
  obtain ⟨-, -, hmapped, -⟩ := ConfigMapping.bindAll_ok context _ hg
  have hfound : (found.types.map (Provider.component context.settings)).filter
      (·.isConverting) = found.types.map (Provider.component context.settings) := by
    refine List.filter_eq_self.mpr ?_
    intro c hc
    obtain ⟨t, -, rfl⟩ := List.mem_map.mp hc
    rfl
  have hroots : (RootComponent.ofRoots context.source.configRoots).filter
      (·.isConverting) = [] := by
    refine List.filter_eq_nil_iff.mpr ?_
    intro c hc
    simp [RootComponent.not_isConverting_of_mem_ofRoots hc]
  have hadded : added.synthetic.filter (·.isConverting) = [] := by
    refine List.filter_eq_nil_iff.mpr ?_
    intro c hc
    simp [Component.not_isConverting_of_isOfMapping (hmapped c hc)]
  show List.filter _ (_ ++ (_ ++ _)) = _
  rw [List.filter_append, List.filter_append, hfound, hroots, hadded, List.append_nil,
    List.append_nil]

/-! ### The first point of each name

One point more is either the first of its name, and then its type is kept behind the others, or
it changes nothing.  `isFirstAt_append_iff` says so of positions and the two lemmas on
`keptTypes` of types, and the induction puts them together.
-/

/-- The point needs a provider, and none before it one of the same outer name. -/
def InjectionPoint.BringsName (settings : Settings) (before : List InjectionPoint)
    (p : InjectionPoint) : Prop :=
  p.needsProvider settings = true ∧ ∀ q ∈ before, q.needsProvider settings = true →
    q.requiredType.outerName ≠ p.requiredType.outerName

/-- The point stands at the position and is the first to need a provider of its outer
name. -/
def InjectionPoint.IsFirstAt (settings : Settings) (points : List InjectionPoint) (i : Nat)
    (p : InjectionPoint) : Prop :=
  points[i]? = some p ∧ p.BringsName settings (points.take i)

section

variable {settings : Settings} {points : List InjectionPoint} {i : Nat} {p q : InjectionPoint}

private theorem lt_length_of_getElem? (h : points[i]? = some p) : i < points.length :=
  (List.getElem?_eq_some_iff.mp h).1

/-- One point more at the end `IsFirstAt` its place when it `BringsName`, and changes nothing for
those before it. -/
theorem isFirstAt_append_iff :
    q.IsFirstAt settings (points ++ [p]) i ↔ q.IsFirstAt settings points i ∨
      (i = points.length ∧ q = p ∧ p.BringsName settings points) := by
  refine ⟨?_, ?_⟩
  · intro h
    obtain ⟨hstands, hbrings⟩ := h
    by_cases hi : i < points.length
    · rw [List.getElem?_append_left hi] at hstands
      rw [List.take_append_of_le_length (Nat.le_of_lt hi)] at hbrings
      exact Or.inl ⟨hstands, hbrings⟩
    · have hlt := lt_length_of_getElem? hstands
      rw [List.length_append, List.length_singleton] at hlt
      obtain rfl : i = points.length := by omega
      rw [List.getElem?_concat_length] at hstands
      obtain rfl := Option.some.inj hstands
      rw [List.take_left] at hbrings
      exact Or.inr ⟨rfl, rfl, hbrings⟩
  · intro h
    rcases h with ⟨hstands, hbrings⟩ | ⟨rfl, rfl, hbrings⟩
    · have hi := lt_length_of_getElem? hstands
      refine ⟨?_, ?_⟩
      · rw [List.getElem?_append_left hi, hstands]
      · rwa [List.take_append_of_le_length (Nat.le_of_lt hi)]
    · refine ⟨List.getElem?_concat_length, ?_⟩
      rwa [List.take_left]

/-- The types that are kept of a list of points. -/
def keptTypes (settings : Settings) (points : List InjectionPoint) : List TypeRef :=
  (Unsupplied.empty.insertAll (providerTypes settings points)).types

/-- `keptTypes` has a name when a point needs a provider of that outer name. -/
theorem exists_kept_iff {name : QualifiedName} :
    (∃ t ∈ keptTypes settings points, t.outerName = name) ↔
      ∃ x ∈ points, x.needsProvider settings = true ∧ x.requiredType.outerName = name :=
  Unsupplied.covers_iff.symm.trans covers_providerTypes_iff

private theorem nodup_keptTypes (settings : Settings) (points : List InjectionPoint) :
    ((keptTypes settings points).map (·.outerName)).Nodup :=
  (Unsupplied.empty.insertAll (providerTypes settings points)).distinct

private theorem insertAll_providerTypes_append (h : p.needsProvider settings = true) :
    Unsupplied.empty.insertAll (providerTypes settings (points ++ [p])) =
      (Unsupplied.empty.insertAll (providerTypes settings points)).insert p.requiredType := by
  have htypes : providerTypes settings (points ++ [p]) =
      providerTypes settings points ++ [p.requiredType] := by simp [providerTypes, h]
  rw [htypes, Unsupplied.insertAll, List.foldl_concat]
  rfl

private theorem keptTypes_append_of_bringsName (h : p.BringsName settings points) :
    keptTypes settings (points ++ [p]) = keptTypes settings points ++ [p.requiredType] := by
  have hfree : ¬ (Unsupplied.empty.insertAll (providerTypes settings points)).covers
      p.requiredType.outerName = true := by
    intro htaken
    obtain ⟨x, hx, hneeds, hname⟩ := covers_providerTypes_iff.mp htaken
    exact h.2 x hx hneeds hname
  rw [keptTypes, insertAll_providerTypes_append h.1, Unsupplied.types_insert, if_neg hfree]
  rfl

private theorem keptTypes_append_of_not_bringsName (h : ¬ p.BringsName settings points) :
    keptTypes settings (points ++ [p]) = keptTypes settings points := by
  by_cases hneeds : p.needsProvider settings = true
  · have htaken : (Unsupplied.empty.insertAll (providerTypes settings points)).covers
        p.requiredType.outerName = true := by
      by_contra hfree
      refine h ⟨hneeds, ?_⟩
      intro x hx hxneeds hname
      exact hfree (covers_providerTypes_iff.mpr ⟨x, hx, hxneeds, hname⟩)
    rw [keptTypes, insertAll_providerTypes_append hneeds, Unsupplied.types_insert, if_pos htaken]
    rfl
  · have htypes : providerTypes settings (points ++ [p]) = providerTypes settings points := by
      simp [providerTypes, hneeds]
    rw [keptTypes, htypes]
    rfl

end

/-- `keptTypes` are those of the points that are `IsFirstAt` theirs, in the order of the points.
The induction takes the points from the end. -/
theorem exists_firsts (settings : Settings) (points : List InjectionPoint) :
    ∃ firsts : List (Nat × InjectionPoint), firsts.Pairwise (fun a b => a.1 < b.1) ∧
      (∀ i p, (i, p) ∈ firsts ↔ p.IsFirstAt settings points i) ∧
      keptTypes settings points = firsts.map (·.2.requiredType) := by
  induction points using List.reverseRecOn with
  | nil =>
      refine ⟨[], .nil, ?_, rfl⟩
      intro i p
      simp [IsFirstAt]
  | append_singleton points p ih =>
      obtain ⟨firsts, hascending, hfirsts, htypes⟩ := ih
      by_cases hbrings : p.BringsName settings points
      · refine ⟨firsts ++ [(points.length, p)], ?_, ?_, ?_⟩
        · refine List.pairwise_append.mpr ⟨hascending, List.pairwise_singleton _ _, ?_⟩
          intro a ha b hb
          rw [List.mem_singleton.mp hb]
          exact lt_length_of_getElem? ((hfirsts a.1 a.2).mp ha).1
        · intro i q
          rw [isFirstAt_append_iff, List.mem_append, hfirsts]
          simp [hbrings]
        · rw [keptTypes_append_of_bringsName hbrings, htypes]
          simp
      · -- a point that brings no name stands at a position that is no first one
        refine ⟨firsts, hascending, ?_, ?_⟩
        · intro i q
          rw [isFirstAt_append_iff, hfirsts]
          simp [hbrings]
        · rw [keptTypes_append_of_not_bringsName hbrings, htypes]

/-! ### The providers of an output -/

/-- The parameter of a provider names the outer name of its type and no other. -/
theorem Provider.param?_component_eq_iff {settings : Settings} {t : TypeRef}
    {name : QualifiedName} :
    (component settings t).param? requiredTypeParam = some (.text name.text) ↔
      t.outerName = name := by
  rw [(component_supplies settings t).parameter, Option.some.injEq, ParamValue.text.injEq]
  exact QualifiedName.text_inj

/-- What the providers of an output owe to the points. -/
structure BuildOutput.SuppliesOnce (settings : Settings) (points : List InjectionPoint)
    (o : BuildOutput) : Prop where
  /-- No two providers state the same type to convert to. -/
  distinct : (o.providers.map (·.param? Provider.requiredTypeParam)).Nodup
  /-- A point that needs a provider finds one under the name of its type and no second, and
  it is that of the first such point. -/
  present : ∀ p ∈ points, p.needsProvider settings = true →
    ∃ (i : Nat) (q : InjectionPoint) (c : Component), q.IsFirstAt settings points i ∧
      q.requiredType.outerName = p.requiredType.outerName ∧
      c.Supplies settings q.requiredType ∧
      o.providers.filter (fun c => c.param? Provider.requiredTypeParam =
        some (.text p.requiredType.outerName.text)) = [c]
  /-- The providers are those of the points that are `IsFirstAt` theirs and no others, in the order
  of the points. -/
  ordered : ∃ firsts : List (Nat × InjectionPoint), firsts.Pairwise (fun a b => a.1 < b.1) ∧
    (∀ i p, (i, p) ∈ firsts ↔ p.IsFirstAt settings points i) ∧
    List.Forall₂ (fun x c => c.Supplies settings x.2.requiredType) firsts o.providers

namespace BindingContext

variable {context : BindingContext} {o : BuildOutput}

theorem providers_eq_of_run (hrun : context.run = .ok o) :
    o.providers = (keptTypes context.settings context.source.injectionPoints).map
      (Provider.component context.settings) := by
  obtain ⟨found, added, ha, hg, rfl⟩ := run_eq_ok_iff.mp hrun
  rw [providers_output hg, (analyze_of_ok ha).2, keptTypes]

/-- **One provider for each outer name that points need one of**, whatever source, loader
and emitter a pass works with. -/
theorem providers_of_run (hrun : context.run = .ok o) :
    o.SuppliesOnce context.settings context.source.injectionPoints := by
  have hdistinct := nodup_keptTypes context.settings context.source.injectionPoints
  obtain ⟨firsts, hascending, hfirsts, htypes⟩ :=
    exists_firsts context.settings context.source.injectionPoints
  refine ⟨?_, ?_, firsts, hascending, hfirsts, ?_⟩
  · have hparam : ((keptTypes context.settings context.source.injectionPoints).map
        (Provider.component context.settings)).map (·.param? Provider.requiredTypeParam) =
          ((keptTypes context.settings context.source.injectionPoints).map
            (·.outerName)).map fun name => some (.text name.text) := by
      rw [List.map_map, List.map_map]
      exact List.map_congr_left fun t _ => (Provider.component_supplies _ t).parameter
    rw [providers_eq_of_run hrun, hparam]
    refine List.Nodup.map ?_ hdistinct
    intro a b hab
    simpa [QualifiedName.text_inj] using hab
  · intro p hp hneeds
    obtain ⟨t, ht, hname⟩ := exists_kept_iff.mpr ⟨p, hp, hneeds, rfl⟩
    obtain ⟨x, hx, rfl⟩ := List.mem_map.mp (htypes ▸ ht)
    refine ⟨x.1, x.2, Provider.component context.settings x.2.requiredType,
      (hfirsts x.1 x.2).mp hx, hname, Provider.component_supplies _ _, ?_⟩
    have hone := filter_eq_singleton_of_nodup hdistinct ht
    rw [hname] at hone
    rw [providers_eq_of_run hrun, List.filter_map, ← List.map_singleton, ← hone]
    congr 2
    funext t
    simp [Provider.param?_component_eq_iff]
  · rw [providers_eq_of_run hrun, htypes, List.map_map]
    refine List.forall₂_map_right_iff.mpr (List.forall₂_same.mpr ?_)
    intro x _
    exact Provider.component_supplies _ _

/-- A program that asks for two applications of one class, for an array of that class, for
a supplied type, and with a qualifier that is not its own. -/
def boxes : Snapshot where
  classes := []
  injectionPoints :=
    let asks : List Annotation := [⟨Settings.default.propertyQualifier, ∅⟩]
    [⟨.field ⟨"app.Client"⟩ "key", .applied ⟨"app.Box"⟩ [.named ⟨"app.Key"⟩], asks, false⟩,
      ⟨.field ⟨"app.Client"⟩ "limit", .primitive .long, asks, false⟩,
      ⟨.field ⟨"app.Client"⟩ "boxes", .array (.named ⟨"app.Box"⟩), asks, false⟩,
      ⟨.parameter ⟨"app.Client"⟩ "connect" 0 "lock", .applied ⟨"app.Box"⟩ [.named ⟨"app.Lock"⟩],
        asks, false⟩,
      ⟨.onClass ⟨"app.Client"⟩, .named ⟨"app.Service"⟩, asks, true⟩]
  declarations := []
  configRoots := [⟨⟨"app.Http"⟩, .runtime⟩]

/-- That program gets two providers, one for the class and one for its arrays. -/
theorem providers_boxes :
    ∃ o, (boxes.context .default).run = .ok o ∧
      o.SuppliesOnce .default boxes.injectionPoints ∧
      o.providers.map (·.providerType) =
        [.applied ⟨"app.Box"⟩ [.named ⟨"app.Key"⟩], .array (.named ⟨"app.Box"⟩)] := by
  have hrun : (boxes.context .default).run = .ok _ := rfl
  exact ⟨_, hrun, providers_of_run hrun, rfl⟩

end BindingContext

end ConfigBinder
