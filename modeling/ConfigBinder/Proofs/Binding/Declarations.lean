/-
What the declarations of mappings leave, to the last of them or up to one that fails.

A declaration that stands on a class is looked at in three steps, each of which may fail: its
class is loaded, its implementations are made, and there must be one.  Only then anything is
added, so a declaration leaves the `items` of a `MadeMapping` or it `FailsWith` an error and
leaves none.  The walk ends at the first that fails.

So what a row of declarations leaves is told by those that are through, whatever stands
behind them: the induction of `bindAll_append_of_isOf` is over these, with any rest.
-/
import ConfigBinder.Binding.Stage
import Mathlib.Data.List.Forall2

namespace ConfigBinder

/-! ### What becomes of a declaration

`MadeMapping.IsOf` and `FailsWith` go by the answers of the loader and the emitter and do not
mention `bind`, so that what `bind` does can be compared with them.
-/

/-- A mapping with the implementations that are made for it. -/
structure MadeMapping where
  interface : QualifiedName
  keyPrefix : String
  implementations : List Implementation

/-- Whether the declaration stands on a class. -/
def Declaration.isOnClass (d : Declaration) : Bool :=
  match d.target with
  | .onClass _ => true
  | _ => false

/-- The declarations of mappings that stand on a class, in order. -/
def BindingContext.classDeclarations (context : BindingContext) : List Declaration :=
  (context.source.declarations context.settings.mappingAnnotation).filter (·.isOnClass)

/-- The mapping is made of the declaration: under the prefix that it states or the empty one,
with the implementations that the emitter gives for its class, one or more. -/
structure MadeMapping.IsOf (context : BindingContext) (m : MadeMapping) (d : Declaration) :
    Prop where
  target : d.target = .onClass m.interface
  keyPrefix : m.keyPrefix = (d.attached.value? "prefix").getD ""
  made : ∃ loaded, context.loader m.interface = .ok loaded ∧
    context.emitter loaded m.keyPrefix = .ok m.implementations
  nonempty : m.implementations ≠ []

/-- Why no mapping is made of a declaration.  The error names its class. -/
inductive Declaration.FailsWith (context : BindingContext) (d : Declaration) :
    BindingError → Prop
  | loading {name : QualifiedName} {reason : String} (target : d.target = .onClass name)
      (hload : context.loader name = .error reason) :
      FailsWith context d (.classLoading name reason)
  | emission {name : QualifiedName} {loaded : LoadedClass} {reason : String}
      (target : d.target = .onClass name) (hload : context.loader name = .ok loaded)
      (hemit : context.emitter loaded ((d.attached.value? "prefix").getD "") = .error reason) :
      FailsWith context d (.mappingGeneration name reason)
  | nothing {name : QualifiedName} {loaded : LoadedClass}
      (target : d.target = .onClass name) (hload : context.loader name = .ok loaded)
      (hemit : context.emitter loaded ((d.attached.value? "prefix").getD "") = .ok []) :
      FailsWith context d (.mappingGeneration name "no implementation was generated")

/-- The items of a row of mappings, kind by kind. -/
def MadeMapping.items (settings : Settings) (made : List MadeMapping) : Collected where
  additional := []
  synthetic := made.map fun m =>
    { implementation := m.interface
      providerType := .named m.interface
      types := [.named m.interface]
      qualifiers := []
      scope := .dependent
      creator := .mapping settings.mappingCreator
      params := .ofList [("type", .type m.interface)] }
  reflective := made.flatMap fun m => m.implementations.flatMap fun i =>
    [{ className := i.interface.text, constructors := false, methods := true },
      { className := i.className, constructors := true, methods := false }]
  generated := made.flatMap fun m => m.implementations.map fun i =>
    { name := i.className
      bytes := i.bytes
      sourceInterface := i.interface
      applicationClass := true }
  properties := []
  mappings := made.map fun m =>
    { interface := m.interface
      keyPrefix := m.keyPrefix
      implementations := m.implementations.map (·.className) }

/-- Two contexts give the same answers to what is asked of them for a declaration. -/
def Declaration.SeenAlike (context other : BindingContext) (d : Declaration) : Prop :=
  ∀ name, d.target = .onClass name → other.loader name = context.loader name ∧
    ∀ loaded, context.loader name = .ok loaded →
      other.emitter loaded ((d.attached.value? "prefix").getD "") =
        context.emitter loaded ((d.attached.value? "prefix").getD "")

namespace ConfigMapping

variable {context other : BindingContext} {d : Declaration}

/-! ### One declaration

A declaration on a class is through or it fails, and not both, and which of them hangs on what
the loader and the emitter answer for its class.  `SeenAlike` says that two contexts give the
same answers there.
-/

private theorem bind_of_isOf {m : MadeMapping} (h : m.IsOf context d) :
    bind context m.interface m.keyPrefix =
      .ok (contribution context.settings m.interface m.keyPrefix m.implementations) := by
  obtain ⟨loaded, hload, hemit⟩ := h.made
  unfold bind
  simp only [hload, hemit]
  cases hmade : m.implementations with
  | nil => exact absurd hmade h.nonempty
  | cons i rest => rfl

private theorem bind_of_failsWith {e : BindingError} (h : d.FailsWith context e) :
    ∃ name, d.target = .onClass name ∧ bind context name (statedPrefix d) = .error e := by
  cases h with
  | loading target hload =>
      refine ⟨_, target, ?_⟩
      simp only [bind, hload]
  | emission target hload hemit =>
      refine ⟨_, target, ?_⟩
      simp only [bind, hload, statedPrefix, hemit]
  | nothing target hload hemit =>
      refine ⟨_, target, ?_⟩
      simp only [bind, hload, statedPrefix, hemit]

/-- Of a declaration on a class a mapping is made (`IsOf`), or there is a reason why not
(`FailsWith`). -/
theorem isOf_or_failsWith (context : BindingContext) (h : d.isOnClass = true) :
    (∃ m : MadeMapping, m.IsOf context d) ∨ ∃ e, d.FailsWith context e := by
  obtain ⟨name, target⟩ : ∃ name, d.target = .onClass name := by
    unfold Declaration.isOnClass at h
    split at h
    · exact ⟨_, ‹_›⟩
    · exact Bool.noConfusion h
  cases hload : context.loader name with
  | error reason => exact Or.inr ⟨_, .loading target hload⟩
  | ok loaded =>
      cases hemit : context.emitter loaded ((d.attached.value? "prefix").getD "") with
      | error reason => exact Or.inr ⟨_, .emission target hload hemit⟩
      | ok implementations =>
          cases implementations with
          | nil => exact Or.inr ⟨_, .nothing target hload hemit⟩
          | cons i rest =>
              exact Or.inl ⟨⟨name, _, i :: rest⟩, target, rfl, ⟨loaded, hload, hemit⟩,
                List.cons_ne_nil i rest⟩

/-- What `FailsWith` some error has no mapping made of it. -/
theorem not_isOf_of_failsWith {m : MadeMapping} {e : BindingError} (h : d.FailsWith context e) :
    ¬ m.IsOf context d := by
  intro hm
  obtain ⟨name, htarget, hbind⟩ := bind_of_failsWith h
  obtain rfl : name = m.interface := DeclarationTarget.onClass.inj (htarget.symm.trans hm.target)
  have hmade := bind_of_isOf hm
  rw [hm.keyPrefix] at hmade
  rw [statedPrefix, hmade] at hbind
  exact nomatch hbind

private theorem isOf_of_seenAlike {m : MadeMapping} (h : d.SeenAlike context other)
    (hm : m.IsOf context d) : m.IsOf other d := by
  obtain ⟨loaded, hload, hemit⟩ := hm.made
  obtain ⟨hloader, hemitter⟩ := h m.interface hm.target
  refine ⟨hm.target, hm.keyPrefix, ⟨loaded, hloader.trans hload, ?_⟩, hm.nonempty⟩
  rw [hm.keyPrefix] at hemit ⊢
  exact (hemitter loaded hload).trans hemit

private theorem failsWith_of_seenAlike {e : BindingError} (h : d.SeenAlike context other)
    (hd : d.FailsWith context e) : d.FailsWith other e := by
  cases hd with
  | loading target hload => exact .loading target ((h _ target).1.trans hload)
  | emission target hload hemit =>
      obtain ⟨hloader, hemitter⟩ := h _ target
      exact .emission target (hloader.trans hload) ((hemitter _ hload).trans hemit)
  | nothing target hload hemit =>
      obtain ⟨hloader, hemitter⟩ := h _ target
      exact .nothing target (hloader.trans hload) ((hemitter _ hload).trans hemit)

/-! ### A row of declarations -/

/-- A row of declarations on classes is through, or there is a first that fails. -/
theorem through_or_halted (context : BindingContext) (declarations : List Declaration)
    (h : ∀ d ∈ declarations, d.isOnClass = true) :
    (∃ made, List.Forall₂ (MadeMapping.IsOf context) made declarations) ∨
      ∃ made earlier d later e, declarations = earlier ++ d :: later ∧
        List.Forall₂ (MadeMapping.IsOf context) made earlier ∧ d.FailsWith context e := by
  induction declarations with
  | nil => exact Or.inl ⟨[], .nil⟩
  | cons d rest ih =>
      rcases isOf_or_failsWith context (h d List.mem_cons_self) with hmade | hfails
      · obtain ⟨m, hm⟩ := hmade
        rcases ih fun x hx => h x (List.mem_cons_of_mem d hx) with hthrough | hhalted
        · obtain ⟨made, hrest⟩ := hthrough
          exact Or.inl ⟨m :: made, .cons hm hrest⟩
        · obtain ⟨made, earlier, x, later, e, hsplit, hearlier, hx⟩ := hhalted
          exact Or.inr ⟨m :: made, d :: earlier, x, later, e, by rw [hsplit, List.cons_append],
            .cons hm hearlier, hx⟩
      · obtain ⟨e, he⟩ := hfails
        exact Or.inr ⟨[], [], d, rest, e, rfl, .nil, he⟩

private theorem items_cons (settings : Settings) (m : MadeMapping) (made : List MadeMapping) :
    MadeMapping.items settings (m :: made) =
      contribution settings m.interface m.keyPrefix m.implementations ++
        MadeMapping.items settings made := rfl

private theorem declared_cons_of_target {name : QualifiedName} (h : d.target = .onClass name)
    (rest : List Declaration) : declared (d :: rest) = (name, statedPrefix d) :: declared rest := by
  unfold declared
  rw [List.filterMap_cons_some]
  simp only [h]

/-- Declarations that stand on no class count for nothing in `declared`. -/
theorem declared_filter_isOnClass (declarations : List Declaration) :
    declared (declarations.filter (·.isOnClass)) = declared declarations := by
  unfold declared
  rw [List.filterMap_filter]
  congr 1
  funext d
  unfold Declaration.isOnClass
  cases d.target <;> rfl

theorem generate_eq_bindAll (context : BindingContext) :
    generate context = bindAll context (declared context.classDeclarations) := by
  rw [BindingContext.classDeclarations, declared_filter_isOnClass, generate]

/-- `bindAll` has the items of a declaration that is through, and goes on behind it. -/
theorem bindAll_cons_of_isOf {m : MadeMapping} (h : m.IsOf context d) (rest : List Declaration) :
    bindAll context (declared (d :: rest)) =
      (contribution context.settings m.interface m.keyPrefix m.implementations ++
          (bindAll context (declared rest)).1,
        (bindAll context (declared rest)).2) := by
  have hbind := bind_of_isOf h
  rw [h.keyPrefix] at hbind
  rw [declared_cons_of_target h.target, bindAll]
  simp only [statedPrefix, hbind, h.keyPrefix]

/-- At a declaration that fails `bindAll` ends, and adds nothing more. -/
theorem bindAll_cons_of_failsWith {e : BindingError} (h : d.FailsWith context e)
    (later : List Declaration) : bindAll context (declared (d :: later)) = (∅, .error e) := by
  obtain ⟨name, htarget, hbind⟩ := bind_of_failsWith h
  rw [declared_cons_of_target htarget, bindAll]
  simp only [hbind]

/-- Declarations that are through leave the items of their mappings. -/
theorem bindAll_append_of_isOf {made : List MadeMapping} {earlier : List Declaration}
    (h : List.Forall₂ (MadeMapping.IsOf context) made earlier) (rest : List Declaration) :
    bindAll context (declared (earlier ++ rest)) =
      (MadeMapping.items context.settings made ++ (bindAll context (declared rest)).1,
        (bindAll context (declared rest)).2) := by
  induction h with
  | nil => rfl
  | @cons m d made earlier hm _ ih =>
      rw [List.cons_append, bindAll_cons_of_isOf hm, ih, items_cons, Collected.append_assoc]

/-- Declarations that are `SeenAlike` leave the same, whatever stands behind them, as soon as one
of them fails. -/
theorem bindAll_of_seenAlike (hsettings : other.settings = context.settings)
    (later later' : List Declaration) (seen : List Declaration) :
    (∀ d ∈ seen, d.isOnClass = true) → (∀ d ∈ seen, d.SeenAlike context other) →
      (∃ d ∈ seen, ∃ e, d.FailsWith context e) →
      bindAll other (declared (seen ++ later')) = bindAll context (declared (seen ++ later)) := by
  induction seen with
  | nil =>
      intro _ _ hfails
      obtain ⟨d, hd, -⟩ := hfails
      exact nomatch hd
  | cons d rest ih =>
      intro hclasses halike hfails
      rw [List.forall_mem_cons] at hclasses halike
      rw [List.exists_mem_cons_iff] at hfails
      rw [List.cons_append, List.cons_append]
      rcases isOf_or_failsWith context hclasses.1 with hmade | hfirst
      · obtain ⟨m, hm⟩ := hmade
        -- the one that fails stands behind the first
        have hrest : ∃ x ∈ rest, ∃ e, x.FailsWith context e := by
          rcases hfails with ⟨e, he⟩ | hrest
          · exact absurd hm (not_isOf_of_failsWith he)
          · exact hrest
        rw [bindAll_cons_of_isOf hm, bindAll_cons_of_isOf (isOf_of_seenAlike halike.1 hm),
          ih hclasses.2 halike.2 hrest, hsettings]
      · obtain ⟨e, he⟩ := hfirst
        rw [bindAll_cons_of_failsWith he,
          bindAll_cons_of_failsWith (failsWith_of_seenAlike halike.1 he)]

end ConfigMapping

/-! ### The stage

Nothing behind a declaration that fails is looked at, so contexts that give the same answers up
to it run alike, whatever they would have said of the rest.
-/

namespace Stage

open ConfigMapping

variable {context : BindingContext} {made : List MadeMapping} {earlier later : List Declaration}
  {d : Declaration} {e : BindingError}

private theorem run_mappings_of_through (before : Collected)
    (h : List.Forall₂ (MadeMapping.IsOf context) made context.classDeclarations) :
    run context before .mappings = (before ++ MadeMapping.items context.settings made, .done) := by
  have hrow := bindAll_append_of_isOf h []
  rw [List.append_nil, ← generate_eq_bindAll] at hrow
  simp only [run, contribution, hrow, declared, List.filterMap_nil, bindAll,
    Collected.append_empty, resultOf]

private theorem run_mappings_of_halted (before : Collected)
    (hsplit : context.classDeclarations = earlier ++ d :: later)
    (hearlier : List.Forall₂ (MadeMapping.IsOf context) made earlier)
    (hd : d.FailsWith context e) :
    run context before .mappings =
      (before ++ MadeMapping.items context.settings made, .failed e) := by
  have hrow := bindAll_append_of_isOf hearlier (d :: later)
  rw [← hsplit, ← generate_eq_bindAll, bindAll_cons_of_failsWith hd] at hrow
  simp only [run, contribution, hrow, Collected.append_empty, resultOf]

/-- How the stage of mappings goes. -/
structure MappingsHold (context : BindingContext) (before : Collected) : Prop where
  /-- When all declarations are through, the stage adds the items of their mappings. -/
  through : ∀ made, List.Forall₂ (MadeMapping.IsOf context) made context.classDeclarations →
    run context before .mappings = (before ++ MadeMapping.items context.settings made, .done)
  /-- When one fails behind others that are through, the stage has its error and has added
  the items of those others. -/
  halted : ∀ made earlier d later e, context.classDeclarations = earlier ++ d :: later →
    List.Forall₂ (MadeMapping.IsOf context) made earlier → d.FailsWith context e →
    run context before .mappings =
      (before ++ MadeMapping.items context.settings made, .failed e)
  /-- There is no third case. -/
  decided : (∃ made, List.Forall₂ (MadeMapping.IsOf context) made context.classDeclarations) ∨
    ∃ made earlier d later e, context.classDeclarations = earlier ++ d :: later ∧
      List.Forall₂ (MadeMapping.IsOf context) made earlier ∧ d.FailsWith context e
  /-- What stands behind declarations one of which fails counts for nothing. -/
  unseen : ∀ seen later, context.classDeclarations = seen ++ later →
    (∃ d ∈ seen, ∃ e, d.FailsWith context e) →
    ∀ (other : BindingContext) (later' : List Declaration), other.settings = context.settings →
      other.classDeclarations = seen ++ later' → (∀ d ∈ seen, d.SeenAlike context other) →
      run other before .mappings = run context before .mappings

theorem isOnClass_of_mem (h : d ∈ context.classDeclarations) : d.isOnClass = true :=
  (List.mem_filter.mp h).2

/-- Contexts that give the same answers up to a declaration that fails run alike. -/
theorem run_mappings_of_seenAlike {other : BindingContext} {seen later' : List Declaration}
    (before : Collected) (hsplit : context.classDeclarations = seen ++ later)
    (hfails : ∃ d ∈ seen, ∃ e, d.FailsWith context e)
    (hsettings : other.settings = context.settings)
    (hother : other.classDeclarations = seen ++ later')
    (halike : ∀ d ∈ seen, d.SeenAlike context other) :
    run other before .mappings = run context before .mappings := by
  have hclasses : ∀ d ∈ seen, d.isOnClass = true := by
    intro d hd
    have hmem : d ∈ context.classDeclarations := by
      rw [hsplit]
      exact List.mem_append_left later hd
    exact isOnClass_of_mem hmem
  have hgenerate : generate other = generate context := by
    rw [generate_eq_bindAll, generate_eq_bindAll, hsplit, hother]
    exact bindAll_of_seenAlike hsettings later later' seen hclasses halike hfails
  simp only [run, contribution, hgenerate]

/--
**A declaration leaves all of its items or none.**  When every declaration on a class can be
loaded and implemented, the stage adds the items of all, in order.  Else it fails for the first
that cannot, with an error that names its class; it has added the items of those before it, and
nothing depends on what stands behind it.
-/
theorem mappings_atomic (context : BindingContext) (before : Collected) :
    MappingsHold context before where
  through _ := run_mappings_of_through before
  halted _ _ _ _ _ := run_mappings_of_halted before
  decided := through_or_halted context _ fun _ => isOnClass_of_mem
  unseen _ _ hsplit hfails _ _ hsettings hother halike :=
    run_mappings_of_seenAlike before hsplit hfails hsettings hother halike

end Stage

end ConfigBinder
