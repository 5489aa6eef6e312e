/-
Type arguments do not influence a pass.

The type of an injection point is asked for its outer name, its core and whether it is
primitive, an array, supplied or optional, and each of these is the same of the `plain` type,
without its arguments.  So the arguments can be left out before the pass or after it: a pass
over plain points has the output of the pass over the points, made plain (`run_plain`).

Two programs that differ in arguments alone are the same program without them.
-/
import ConfigBinder.Proofs.Binding.Run

namespace ConfigBinder

/-! ### Leaving arguments out

Whatever carries types has its own `plain`.  Each is the one for types, taken where a type
stands.
-/

namespace TypeRef

/-- The type without type arguments: a class applied to some becomes the class. -/
def plain : TypeRef → TypeRef
  | .primitive p => .primitive p
  | .named n => .named n
  | .applied n _ => .named n
  | .array e => .array e.plain

@[simp] theorem outerName_plain (t : TypeRef) : t.plain.outerName = t.outerName := by
  fun_induction plain t with
  | case1 p | case2 n | case3 n arguments => rfl
  | case4 e ih => rw [outerName, outerName, ih]

@[simp] theorem isArray_plain (t : TypeRef) : t.plain.isArray = t.isArray := by
  cases t <;> rfl

@[simp] theorem isPrimitive_plain (t : TypeRef) : t.plain.isPrimitive = t.isPrimitive := by
  cases t <;> rfl

@[simp] theorem isSupplied_plain (t : TypeRef) : t.plain.isSupplied = t.isSupplied := by
  cases t <;> rfl

@[simp] theorem isOptional_plain (t : TypeRef) : t.plain.isOptional = t.isOptional := by
  cases t <;> rfl

@[simp] theorem core_plain (t : TypeRef) : t.plain.core = t.core.plain := by
  fun_induction plain t with
  | case1 p | case2 n | case3 n arguments => rfl
  | case4 e ih => exact ih

end TypeRef

/-- The point without type arguments in its type. -/
def InjectionPoint.plain (p : InjectionPoint) : InjectionPoint :=
  { p with requiredType := p.requiredType.plain }

def ConfigProperty.plain (x : ConfigProperty) : ConfigProperty :=
  { x with requiredType := x.requiredType.plain }

def Classification.plain (c : Classification) : Classification :=
  { c with requiredType := c.requiredType.plain, property := c.property.map ConfigProperty.plain }

def Component.plain (c : Component) : Component :=
  { c with providerType := c.providerType.plain, types := c.types.map TypeRef.plain }

def Unsupplied.plain (u : Unsupplied) : Unsupplied where
  types := u.types.map TypeRef.plain
  distinct := by
    rw [List.map_map]
    simpa [Function.comp_def] using u.distinct

/-- The items without type arguments in what is provided and asked for. -/
def Collected.plain (c : Collected) : Collected :=
  { c with
    synthetic := c.synthetic.map Component.plain
    properties := c.properties.map ConfigProperty.plain }

def BuildOutput.plain (o : BuildOutput) : BuildOutput := { o with items := o.items.plain }

def MetadataSource.plain (source : MetadataSource) : MetadataSource :=
  { source with injectionPoints := source.injectionPoints.map InjectionPoint.plain }

def BindingContext.plain (context : BindingContext) : BindingContext :=
  { context with source := context.source.plain }

/-! ### The analysis -/

section

variable (settings : Settings) (source : MetadataSource)

private theorem classify_plain (p : InjectionPoint) :
    classify settings source.plain p.plain =
      (classify settings source p).map (Option.map Classification.plain) := by
  unfold classify
  have hqualifier : propertyQualifier? settings p.plain = propertyQualifier? settings p := rfl
  rw [hqualifier]
  cases propertyQualifier? settings p with
  | none => rfl
  | some qualifier =>
      unfold classifyQualified
      have htarget : p.plain.target = p.target := rfl
      -- the source is asked for the class around a nested one, which has no arguments
      have hname : derivedPropertyName source.plain = derivedPropertyName source := rfl
      rw [htarget, hname]
      cases p.target.member? with
      | none => rfl
      | some member =>
          simp only [Except.map, InjectionPoint.plain, Classification.plain,
            TypeRef.isSupplied_plain, TypeRef.isOptional_plain, Option.map_some]
          split <;> rfl

namespace Unsupplied

private theorem ext_types {u v : Unsupplied} (h : u.types = v.types) : u = v := by
  cases u
  cases v
  simpa using h

private theorem covers_plain (u : Unsupplied) (name : QualifiedName) :
    u.plain.covers name = u.covers name := by
  rw [covers, covers, plain, List.map_map]
  simp [Function.comp_def]

private theorem insert_plain (u : Unsupplied) (t : TypeRef) :
    u.plain.insert t.plain = (u.insert t).plain := by
  refine ext_types ?_
  rw [types_insert, covers_plain, TypeRef.outerName_plain]
  show _ = (u.insert t).types.map TypeRef.plain
  rw [types_insert]
  by_cases h : u.covers t.outerName = true
  · rw [if_pos h, if_pos h]
    rfl
  · rw [if_neg h, if_neg h, List.map_append]
    rfl

end Unsupplied

/-- A `scan` over `plain` points finds what the `scan` over the points finds, made plain. -/
theorem scan_plain (points : List InjectionPoint) :
    ∀ found : Unsupplied, scan settings source.plain found.plain (points.map InjectionPoint.plain) =
      ((scan settings source found points).1.map ConfigProperty.plain,
        (scan settings source found points).2.map Unsupplied.plain) := by
  induction points with
  | nil => intro found; rfl
  | cons p rest ih =>
      intro found
      rw [List.map_cons, scan, scan, classify_plain]
      cases classify settings source p with
      | error e => rfl
      | ok asked =>
          cases asked with
          | none => exact ih found
          | some c =>
              -- a type is kept by its outer name, so the same types are kept of both
              have hfound : (if c.plain.supplied then found.plain
                  else found.plain.insert c.plain.requiredType) =
                  (if c.supplied then found else found.insert c.requiredType).plain := by
                show (if c.supplied then _ else _) = _
                cases c.supplied with
                | false => exact Unsupplied.insert_plain found c.requiredType
                | true => rfl
              have hproperty : c.plain.property.toList =
                  c.property.toList.map ConfigProperty.plain := by
                show (c.property.map ConfigProperty.plain).toList = _
                cases c.property <;> rfl
              simp only [Except.map, Option.map_some, hfound, ih, hproperty, List.map_append]

theorem analyze_plain : analyze settings source.plain =
    ((analyze settings source).1.map ConfigProperty.plain,
      (analyze settings source).2.map Unsupplied.plain) :=
  scan_plain settings source source.injectionPoints .empty

end

/-! ### What the stages make of it -/

namespace ConfigProperty

theorem typeName_plain (x : ConfigProperty) : x.plain.typeName = x.typeName := by
  rw [typeName, typeName, plain, TypeRef.outerName_plain]

private theorem group_map_plain (properties : List ConfigProperty) :
    group (properties.map plain) = group properties := by
  rw [group, group, List.map_map]
  congr 1
  refine List.map_congr_left fun x _ => ?_
  rw [Function.comp_apply, typeName_plain]
  rfl

private theorem lookedUp_map_plain (properties : List ConfigProperty) :
    ∀ seen : List String, lookedUp seen (properties.map plain) = lookedUp seen properties := by
  induction properties with
  | nil => intro seen; rfl
  | cons x rest ih =>
      intro seen
      have hprimitive : x.plain.requiredType.isPrimitive = x.requiredType.isPrimitive :=
        TypeRef.isPrimitive_plain x.requiredType
      rw [List.map_cons, lookedUp, lookedUp, hprimitive, typeName_plain, ih, ih]

private theorem reflective_map_plain (properties : List ConfigProperty) :
    reflective (properties.map plain) = reflective properties := by
  rw [reflective, reflective, lookedUp_map_plain]

end ConfigProperty

namespace Provider

private theorem component_plain (settings : Settings) (t : TypeRef) :
    component settings t.plain = (component settings t).plain := by
  have himplementation : implementation settings t.plain = implementation settings t := by
    simp only [implementation, TypeRef.isArray_plain, TypeRef.outerName_plain]
  rw [component, component, himplementation, TypeRef.outerName_plain]
  rfl

private theorem reflective_map_plain (types : List TypeRef) :
    reflective (types.map TypeRef.plain) = reflective types := by
  rw [reflective, reflective, List.filter_map, List.map_map]
  simp [Function.comp_def]

end Provider

/-- A root is injected as its class, which has no arguments, so `plain` changes nothing. -/
theorem RootComponent.map_plain_ofRoots (roots : List ConfigRoot) :
    (ofRoots roots).map Component.plain = ofRoots roots := by
  have hroot : ∀ c ∈ ofRoots roots, c.plain = c := by
    intro c hc
    obtain ⟨root, -, hroot⟩ := List.mem_filterMap.mp hc
    unfold ofRoot? at hroot
    split at hroot
    · rw [← Option.some.inj hroot]
      rfl
    · exact nomatch hroot
  exact (List.map_congr_left hroot).trans (List.map_id' _)

/-- A mapping is injected as its interface, and `plain` changes nothing there either. -/
theorem ConfigMapping.map_plain_synthetic {context : BindingContext} {added : Collected}
    (h : generate context = (added, .ok ())) :
    added.synthetic.map Component.plain = added.synthetic := by
  have hcomponent : ∀ c ∈ added.synthetic, c.plain = c := by
    intro c hc
    obtain ⟨m, implementations, -, hmem⟩ :=
      exists_contribution_of_bindAll (·.synthetic) rfl (fun _ _ => rfl) h hc
    rw [List.mem_singleton.mp hmem]
    rfl
  exact (List.map_congr_left hcomponent).trans (List.map_id' _)

/-! ### The pass -/

namespace BindingContext

variable {context : BindingContext}

private theorem bindAll_plain (mappings : List (QualifiedName × String)) :
    ConfigMapping.bindAll context.plain mappings = ConfigMapping.bindAll context mappings := by
  induction mappings with
  | nil => rfl
  | cons m rest ih =>
      have hbind : ConfigMapping.bind context.plain m.1 m.2 = ConfigMapping.bind context m.1 m.2 :=
        rfl
      rw [ConfigMapping.bindAll, ConfigMapping.bindAll, hbind, ih]

private theorem generate_plain (context : BindingContext) :
    ConfigMapping.generate context.plain = ConfigMapping.generate context :=
  bindAll_plain _

theorem output_plain {found : Unsupplied} {added : Collected}
    (h : ConfigMapping.generate context = (added, .ok ())) :
    context.plain.output found.plain added = (context.output found added).plain := by
  have hproperties : (analyze context.plain.settings context.plain.source).1 =
      (analyze context.settings context.source).1.map ConfigProperty.plain :=
    congrArg Prod.fst (analyze_plain context.settings context.source)
  have hproviders : found.plain.types.map (Provider.component context.plain.settings) =
      (found.types.map (Provider.component context.settings)).map Component.plain := by
    rw [List.map_map]
    show (found.types.map TypeRef.plain).map _ = _
    rw [List.map_map]
    exact List.map_congr_left fun t _ => Provider.component_plain context.settings t
  have hreflective : Provider.reflective found.plain.types = Provider.reflective found.types :=
    Provider.reflective_map_plain found.types
  have hroots := RootComponent.map_plain_ofRoots context.source.configRoots
  have hadded := ConfigMapping.map_plain_synthetic h
  simp only [output, BuildOutput.plain, Collected.plain, hproperties, hproviders, hreflective,
    ConfigProperty.reflective_map_plain, ConfigProperty.group_map_plain, List.map_append, hroots,
    hadded]
  rfl

/-- **Arguments can be left out before a pass or after it.** -/
theorem run_plain (context : BindingContext) :
    context.plain.run = context.run.map BuildOutput.plain := by
  have hanalysis : (analyze context.plain.settings context.plain.source).2 =
      (analyze context.settings context.source).2.map Unsupplied.plain :=
    congrArg Prod.snd (analyze_plain context.settings context.source)
  cases ha : (analyze context.settings context.source).2 with
  | error e =>
      rw [ha] at hanalysis
      rw [run_of_analysis_error ha, run_of_analysis_error hanalysis]
      rfl
  | ok found =>
      rw [ha] at hanalysis
      rcases hg : ConfigMapping.generate context with ⟨added, outcome⟩
      have hg' : ConfigMapping.generate context.plain = (added, outcome) := by
        rw [generate_plain, hg]
      cases outcome with
      | error e =>
          rw [run_of_mappings_error ha (congrArg Prod.snd hg),
            run_of_mappings_error hanalysis (congrArg Prod.snd hg')]
          rfl
      | ok _ =>
          rw [run_of_ok ha hg, run_of_ok hanalysis hg', output_plain hg]
          rfl

end BindingContext

theorem BuildOutput.providedTypes_plain (o : BuildOutput) :
    o.plain.providedTypes = o.providedTypes := by
  have hprovided : ∀ c : Component, providedBy c.plain = providedBy c := by
    intro c
    unfold providedBy Component.plain
    cases c.creator with
    | bean creator =>
        simp only [TypeRef.core_plain, TypeRef.isPrimitive_plain, TypeRef.outerName_plain]
    | mapping creator | root root phase => rfl
  rw [providedTypes, providedTypes]
  show OrderedSet.ofList ((o.items.synthetic.map Component.plain).filterMap providedBy) = _
  rw [List.filterMap_map]
  congr 2
  funext c
  exact hprovided c

/-! ### Two programs that differ in arguments -/

/-- The same program but for type arguments in the types of injection points, so that `plain` makes
the same of both: at the top or inside an array, a class may be applied to others or to none. -/
structure Snapshot.SameButArguments (s t : Snapshot) : Prop where
  classes : s.classes = t.classes
  injectionPoints : s.injectionPoints.map InjectionPoint.plain =
    t.injectionPoints.map InjectionPoint.plain
  declarations : s.declarations = t.declarations
  configRoots : s.configRoots = t.configRoots

theorem Snapshot.SameButArguments.source_plain {s t : Snapshot} (h : s.SameButArguments t) :
    s.source.plain = t.source.plain := by
  obtain ⟨hclasses, hpoints, hdeclarations, hroots⟩ := h
  cases s
  cases t
  subst hclasses hdeclarations hroots
  rw [MetadataSource.plain, MetadataSource.plain]
  congr 1

/-- The same output but for type arguments in what components and properties carry. -/
structure BuildOutput.SameButArguments (a b : BuildOutput) : Prop where
  plan : a.plan = b.plan
  additional : a.items.additional = b.items.additional
  reflective : a.items.reflective = b.items.reflective
  generated : a.items.generated = b.items.generated
  mappings : a.items.mappings = b.items.mappings
  provided : a.providedTypes = b.providedTypes
  /-- The components are the same but for arguments in their provider type and types. -/
  components : List.Forall₂ (fun c d => c.plain = d.plain) a.items.synthetic b.items.synthetic
  properties : List.Forall₂
    (fun x y => x.name = y.name ∧ x.requiredType.outerName = y.requiredType.outerName)
    a.items.properties b.items.properties

private theorem forall₂_of_map_eq {α β : Type} {f : α → β} {R : α → α → Prop} {xs ys : List α}
    (hR : ∀ x y, f x = f y → R x y) (h : xs.map f = ys.map f) : List.Forall₂ R xs ys := by
  have heq : List.Forall₂ (· = ·) (xs.map f) (ys.map f) := List.forall₂_eq_eq_eq ▸ h
  have hpairs := List.forall₂_map_right_iff.mp (List.forall₂_map_left_iff.mp heq)
  exact hpairs.imp fun x y => hR x y

theorem BuildOutput.sameButArguments_of_plain {a b : BuildOutput} (h : a.plain = b.plain) :
    a.SameButArguments b where
  plan := congrArg (·.plan) h
  additional := congrArg (·.items.additional) h
  reflective := congrArg (·.items.reflective) h
  generated := congrArg (·.items.generated) h
  mappings := congrArg (·.items.mappings) h
  provided := by rw [← a.providedTypes_plain, h, b.providedTypes_plain]
  components := forall₂_of_map_eq (fun _ _ h => h) (congrArg (·.items.synthetic) h)
  properties := by
    refine forall₂_of_map_eq ?_ (congrArg (·.items.properties) h)
    intro x y hxy
    have hname : x.plain.name = y.plain.name := congrArg ConfigProperty.name hxy
    refine ⟨hname, ?_⟩
    rw [← x.requiredType.outerName_plain, ← y.requiredType.outerName_plain]
    exact congrArg (fun z => z.requiredType.outerName) hxy

/-- **Type arguments do not influence a pass.** -/
theorem Snapshot.run_of_sameButArguments {s t : Snapshot} (h : s.SameButArguments t)
    (settings : Settings) (loader : ClassLoader) (emitter : MappingEmitter) :
    (∃ e, (BindingContext.mk settings s.source loader emitter).run = .error e ∧
        (BindingContext.mk settings t.source loader emitter).run = .error e) ∨
      ∃ a b, (BindingContext.mk settings s.source loader emitter).run = .ok a ∧
        (BindingContext.mk settings t.source loader emitter).run = .ok b ∧
        a.SameButArguments b := by
  have hplain : (BindingContext.mk settings s.source loader emitter).plain =
      (BindingContext.mk settings t.source loader emitter).plain := by
    rw [BindingContext.plain, BindingContext.plain, h.source_plain]
  have hruns : (BindingContext.mk settings s.source loader emitter).run.map BuildOutput.plain =
      (BindingContext.mk settings t.source loader emitter).run.map BuildOutput.plain := by
    rw [← BindingContext.run_plain, ← BindingContext.run_plain, hplain]
  cases hs : (BindingContext.mk settings s.source loader emitter).run with
  | error e =>
      cases ht : (BindingContext.mk settings t.source loader emitter).run with
      | error e' =>
          rw [hs, ht] at hruns
          exact Or.inl ⟨e, rfl, by rw [Except.error.inj hruns]⟩
      | ok b =>
          rw [hs, ht] at hruns
          exact nomatch hruns
  | ok a =>
      cases ht : (BindingContext.mk settings t.source loader emitter).run with
      | error e =>
          rw [hs, ht] at hruns
          exact nomatch hruns
      | ok b =>
          rw [hs, ht] at hruns
          exact Or.inr ⟨a, b, rfl, rfl,
            BuildOutput.sameButArguments_of_plain (Except.ok.inj hruns)⟩

/-- A program with two fields of the types. -/
def Snapshot.twoFields (first second : TypeRef) : Snapshot where
  classes := []
  injectionPoints :=
    let asks : List Annotation := [⟨Settings.default.propertyQualifier, ∅⟩]
    [⟨.field ⟨"app.Main"⟩ "first", first, asks, false⟩,
      ⟨.field ⟨"app.Main"⟩ "second", second, asks, false⟩]
  declarations := []
  configRoots := []

/-- Boxes of keys in an array and a box of a lock, and the same with neither keys nor lock. -/
theorem Snapshot.run_of_twoFields :
    let box : QualifiedName := ⟨"app.Box"⟩
    let s := twoFields (.array (.applied box [.named ⟨"app.Key"⟩]))
      (.applied box [.named ⟨"app.Lock"⟩])
    let t := twoFields (.array (.named box)) (.applied box [])
    let loader := s.source.loader
    let emitter := manifestEmitter [] loader
    s.SameButArguments t ∧
      ((∃ e, (BindingContext.mk .default s.source loader emitter).run = .error e ∧
          (BindingContext.mk .default t.source loader emitter).run = .error e) ∨
        ∃ a b, (BindingContext.mk .default s.source loader emitter).run = .ok a ∧
          (BindingContext.mk .default t.source loader emitter).run = .ok b ∧
          a.SameButArguments b) := by
  intro box s t loader emitter
  have h : s.SameButArguments t := ⟨rfl, rfl, rfl, rfl⟩
  exact ⟨h, run_of_sameButArguments h .default loader emitter⟩

end ConfigBinder
