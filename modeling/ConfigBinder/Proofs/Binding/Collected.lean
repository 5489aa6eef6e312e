/-
How the items of different kinds that a run collects hang together.

A mapping leaves items of four kinds: generated classes, entries that keep classes
reachable, a component, and the mapping itself.  A provider leaves two.  No stage
looks at what the others left, and a stage that fails has added all of what a
declaration leaves or nothing of it, so the kinds agree after every stage, whatever
the loader and the emitter answer.

What they agree in is `Collected.Agrees`.  The argument needs no look at the state before a
stage.  Agreement holds of nothing and of the items of one agreeing collection behind those of
another (`Agrees.append`), so it is enough that what each stage adds agrees with itself.
-/
import ConfigBinder.Binding.Stage
import Mathlib.Data.List.Forall2

namespace ConfigBinder

/-! ### The kinds of components -/

/-- Whether the component creates the implementation of a mapping. -/
def Component.isOfMapping (c : Component) : Bool :=
  match c.creator with
  | .mapping _ => true
  | _ => false

/-- Whether the component converts a value to a type with a class of its own. -/
def Component.convertsToClass (c : Component) : Bool :=
  match c.creator with
  | .bean _ => !c.providerType.isArray
  | _ => false

/-- The component that a mapping interface is injected as: the interface and nothing
else is its class, its provided type, its only type and the type to implement. -/
structure ConfigMapping.InjectedAs (m : ConfigMapping) (c : Component) : Prop where
  implementation : c.implementation = m.interface
  providerType : c.providerType = .named m.interface
  types : c.types = [.named m.interface]
  parameter : c.param? interfaceParam = some (.type m.interface)

namespace Collected

/-! ### Agreement -/

/-- What the items of different kinds owe to one another. -/
structure Agrees (c : Collected) : Prop where
  /-- The generated classes are the implementations of the mappings, in order. -/
  implementations : c.mappings.flatMap (·.implementations) = c.generated.map (·.name)
  /-- No mapping lacks an implementation. -/
  implemented : ∀ m ∈ c.mappings, m.implementations ≠ []
  /-- Each mapping has its component, in order, and no other component is of a mapping. -/
  components : List.Forall₂ ConfigMapping.InjectedAs c.mappings
    (c.synthetic.filter (·.isOfMapping))
  /-- The methods of the interface behind each generated class stay reachable, in order. -/
  methods : (c.reflective.filter (·.methods)).map (·.className) =
    c.generated.map (·.sourceInterface.text)
  /-- The classes whose constructors stay reachable are as many as the generated ones
  and the ones that a value is converted to. -/
  constructors : (c.reflective.filter (·.constructors)).length =
    c.generated.length + (c.synthetic.filter (·.convertsToClass)).length

namespace Agrees

theorem empty : (∅ : Collected).Agrees where
  implementations := rfl
  implemented := by simp
  components := by simp
  methods := rfl
  constructors := rfl

theorem append {a b : Collected} (ha : a.Agrees) (hb : b.Agrees) : (a ++ b).Agrees where
  implementations := by
    simp only [append_mappings, append_generated, List.flatMap_append, List.map_append,
      ha.implementations, hb.implementations]
  implemented := by
    intro m hm
    rcases List.mem_append.mp hm with h | h
    · exact ha.implemented m h
    · exact hb.implemented m h
  components := by
    rw [append_mappings, append_synthetic, List.filter_append]
    exact List.rel_append ha.components hb.components
  methods := by
    simp only [append_reflective, append_generated, List.filter_append, List.map_append,
      ha.methods, hb.methods]
  constructors := by
    have h₁ := ha.constructors
    have h₂ := hb.constructors
    simp only [append_reflective, append_generated, append_synthetic, List.filter_append,
      List.length_append]
    omega

/-- Items of kinds that `Agrees` does not speak of, lookups by name among them, owe nothing. -/
theorem of_unrelated {c : Collected} (hm : c.mappings = []) (hg : c.generated = [])
    (hs : ∀ x ∈ c.synthetic, x.isOfMapping = false ∧ x.convertsToClass = false)
    (hr : ∀ x ∈ c.reflective, x.methods = false ∧ x.constructors = false) : c.Agrees := by
  have hs₁ : c.synthetic.filter (·.isOfMapping) = [] :=
    List.filter_eq_nil_iff.mpr fun x hx => by simp [(hs x hx).1]
  have hs₂ : c.synthetic.filter (·.convertsToClass) = [] :=
    List.filter_eq_nil_iff.mpr fun x hx => by simp [(hs x hx).2]
  have hr₁ : c.reflective.filter (·.methods) = [] :=
    List.filter_eq_nil_iff.mpr fun x hx => by simp [(hr x hx).1]
  have hr₂ : c.reflective.filter (·.constructors) = [] :=
    List.filter_eq_nil_iff.mpr fun x hx => by simp [(hr x hx).2]
  refine ⟨?_, ?_, ?_, ?_, ?_⟩ <;> simp [hm, hg, hs₁, hs₂, hr₁, hr₂]

end Agrees

end Collected

/-! ### What a mapping leaves

`ConfigMapping.bind` adds the four kinds in one step or not at all, so its contribution agrees
with itself, and a row of declarations adds such contributions one behind another.
-/

namespace ConfigMapping

/-- `ConfigMapping.component` is what the mapping is `InjectedAs`. -/
theorem component_injectedAs (settings : Settings) (m : ConfigMapping) :
    m.InjectedAs (component settings m.interface) where
  implementation := rfl
  providerType := rfl
  types := rfl
  parameter := by
    simp [component, Component.build, Component.Draft.step, Component.Draft.start,
      Component.Draft.finish, Component.param?, OrderedMap.get?_insert]

private theorem filter_methods_reflective (implementations : List Implementation) :
    ((implementations.flatMap reflective).filter (·.methods)).map (·.className) =
      implementations.map (·.interface.text) := by
  induction implementations with
  | nil => rfl
  | cons i rest ih =>
      simpa [reflective, ReflectiveClass.withMethods, ReflectiveClass.withConstructors] using ih

private theorem length_filter_constructors_reflective (implementations : List Implementation) :
    ((implementations.flatMap reflective).filter (·.constructors)).length =
      implementations.length := by
  induction implementations with
  | nil => rfl
  | cons i rest ih =>
      simpa [reflective, ReflectiveClass.withMethods, ReflectiveClass.withConstructors] using ih

theorem contribution_agrees (settings : Settings) (interface : QualifiedName)
    (keyPrefix : String) {implementations : List Implementation} (h : implementations ≠ []) :
    (contribution settings interface keyPrefix implementations).Agrees where
  implementations := by simp [contribution, generated]
  implemented := by simpa [contribution] using h
  components := by
    have hc : (component settings interface).isOfMapping = true := rfl
    simpa [contribution, hc] using
      component_injectedAs settings
        ⟨interface, keyPrefix, implementations.map (·.className)⟩
  methods := by
    simp only [contribution, filter_methods_reflective, List.map_map]
    rfl
  constructors := by
    have hc : (component settings interface).convertsToClass = false := rfl
    simp [contribution, length_filter_constructors_reflective, hc]

/-- A declaration that binds nothing adds nothing; else its contribution is whole. -/
theorem bind_agrees {context : BindingContext} {interface : QualifiedName} {keyPrefix : String}
    {added : Collected} (h : bind context interface keyPrefix = .ok added) : added.Agrees := by
  unfold bind at h
  split at h
  · simp at h
  · split at h
    · simp at h
    · simp at h
    · rw [← Except.ok.inj h]
      exact contribution_agrees _ _ _ (List.cons_ne_nil _ _)

private theorem bindAll_agrees (context : BindingContext)
    (mappings : List (QualifiedName × String)) : (bindAll context mappings).1.Agrees := by
  induction mappings with
  | nil => exact .empty
  | cons d rest ih =>
      rw [bindAll]
      split
      · exact .empty
      · rename_i added hbind
        exact (bind_agrees hbind).append ih

end ConfigMapping

/-! ### What the other stages leave -/

namespace Provider

/-- Each provider of a class keeps that class open for construction. -/
theorem register_agrees (settings : Settings) (types : List TypeRef) :
    (register settings types).Agrees where
  implementations := rfl
  implemented := by simp [register]
  components := by
    have h : (types.map (component settings)).filter (·.isOfMapping) = [] :=
      List.filter_eq_nil_iff.mpr fun x hx => by
        obtain ⟨t, -, rfl⟩ := List.mem_map.mp hx
        simp [component, Component.build, Component.Draft.step, Component.Draft.finish,
          Component.isOfMapping]
    simp [register, h]
  methods := by
    have h : (reflective types).filter (·.methods) = [] :=
      List.filter_eq_nil_iff.mpr fun x hx => by
        obtain ⟨t, -, rfl⟩ := List.mem_map.mp hx
        simp [ReflectiveClass.withConstructors]
    simp [register, h]
  constructors := by
    have h : (reflective types).filter (·.constructors) = reflective types :=
      List.filter_eq_self.mpr fun x hx => by
        obtain ⟨t, -, rfl⟩ := List.mem_map.mp hx
        rfl
    show ((reflective types).filter (·.constructors)).length =
      0 + ((types.map (component settings)).filter (·.convertsToClass)).length
    rw [h, List.filter_map, List.length_map, reflective, List.length_map, Nat.zero_add]
    rfl

end Provider

namespace Stage

private theorem analysisItems_agrees (context : BindingContext) :
    (analysisItems context).1.Agrees := by
  unfold analysisItems
  split
  · rename_i properties found _
    have h := Provider.register_agrees context.settings found.types
    exact ⟨h.implementations, h.implemented, h.components, h.methods, h.constructors⟩
  · exact .of_unrelated rfl rfl (fun _ hx => nomatch hx) (fun _ hx => nomatch hx)

private theorem reflective_lookupOnly (properties : List ConfigProperty) :
    ∀ x ∈ ConfigProperty.reflective properties, x.methods = false ∧ x.constructors = false := by
  intro x hx
  obtain ⟨name, -, rfl⟩ := List.mem_map.mp hx
  exact ⟨rfl, rfl⟩

private theorem ofRoots_unrelated (roots : List ConfigRoot) :
    ∀ x ∈ RootComponent.ofRoots roots, x.isOfMapping = false ∧ x.convertsToClass = false := by
  intro x hx
  obtain ⟨root, -, hroot⟩ := List.mem_filterMap.mp hx
  unfold RootComponent.ofRoot? at hroot
  split at hroot
  · rw [← Option.some.inj hroot]
    exact ⟨rfl, rfl⟩
  · simp at hroot

/-- What a stage adds agrees with itself, also when the stage fails. -/
theorem contribution_agrees (context : BindingContext) (before : Collected) (stage : Stage) :
    (contribution context before stage).1.Agrees := by
  cases stage with
  | producer => exact .of_unrelated rfl rfl (fun _ hx => nomatch hx) (fun _ hx => nomatch hx)
  | analysis => exact analysisItems_agrees context
  | validation => exact .of_unrelated rfl rfl (fun _ hx => nomatch hx) (reflective_lookupOnly _)
  | roots => exact .of_unrelated rfl rfl (ofRoots_unrelated _) (fun _ hx => nomatch hx)
  | mappings => exact ConfigMapping.bindAll_agrees context _

/-- A stage keeps what `Agrees` says. -/
theorem run_agrees (context : BindingContext) {before : Collected} (h : before.Agrees)
    (stage : Stage) : (run context before stage).1.Agrees :=
  h.append (contribution_agrees context before stage)

end Stage

/-! ### Runs

`states` lists what has been collected before a row of stages and after each of them.  Items are
only ever appended, so each state is a `StartOf` those behind it.
-/

/-- Each kind of item of the first is the start of that kind of the second. -/
structure Collected.StartOf (a b : Collected) : Prop where
  additional : a.additional <+: b.additional
  synthetic : a.synthetic <+: b.synthetic
  reflective : a.reflective <+: b.reflective
  generated : a.generated <+: b.generated
  properties : a.properties <+: b.properties
  mappings : a.mappings <+: b.mappings

namespace Collected.StartOf

private theorem append_right (a b : Collected) : a.StartOf (a ++ b) :=
  ⟨List.prefix_append _ _, List.prefix_append _ _, List.prefix_append _ _,
    List.prefix_append _ _, List.prefix_append _ _, List.prefix_append _ _⟩

theorem trans {a b c : Collected} (h₁ : a.StartOf b) (h₂ : b.StartOf c) : a.StartOf c :=
  ⟨h₁.additional.trans h₂.additional, h₁.synthetic.trans h₂.synthetic,
    h₁.reflective.trans h₂.reflective, h₁.generated.trans h₂.generated,
    h₁.properties.trans h₂.properties, h₁.mappings.trans h₂.mappings⟩

end Collected.StartOf

namespace Stage

/-- What has been collected before a row of stages and after each of them. -/
def states (context : BindingContext) (before : Collected) (stages : List Stage) :
    List Collected :=
  before :: (runAll context before stages).map (·.1)

private theorem startOf_of_mem_states (context : BindingContext) (stages : List Stage) :
    ∀ {before c : Collected}, c ∈ (runAll context before stages).map (·.1) →
      before.StartOf c := by
  induction stages with
  | nil => intro before c hc; simp [runAll] at hc
  | cons stage rest ih =>
      intro before c hc
      have hstep : before.StartOf (run context before stage).1 := .append_right _ _
      rcases List.mem_cons.mp hc with rfl | hc
      · exact hstep
      · exact hstep.trans (ih hc)

private theorem agrees_of_mem_states (context : BindingContext) (stages : List Stage) :
    ∀ {before c : Collected}, before.Agrees → c ∈ states context before stages → c.Agrees := by
  induction stages with
  | nil => intro before c h hc; rwa [List.mem_singleton.mp hc]
  | cons stage rest ih =>
      intro before c h hc
      rcases List.mem_cons.mp hc with rfl | hc
      · exact h
      · exact ih (run_agrees context h stage) hc

private theorem states_pairwise (context : BindingContext) (stages : List Stage) :
    ∀ before : Collected, (states context before stages).Pairwise Collected.StartOf := by
  induction stages with
  | nil => intro before; exact List.pairwise_singleton _ _
  | cons stage rest ih =>
      intro before
      exact List.pairwise_cons.mpr
        ⟨fun c hc => startOf_of_mem_states context (stage :: rest) hc, ih _⟩

/--
**Whatever stages are taken, the kinds of items agree after each.**  The stages come
in any order, any of them any number of times, and go on behind one that has failed;
nothing that has been collected is lost or moved.
-/
theorem states_agree (context : BindingContext) (stages : List Stage) :
    (states context ∅ stages).Pairwise Collected.StartOf ∧
      ∀ c ∈ states context ∅ stages, c.Agrees :=
  ⟨states_pairwise context stages ∅, fun _ hc => agrees_of_mem_states context stages .empty hc⟩

end Stage

end ConfigBinder
