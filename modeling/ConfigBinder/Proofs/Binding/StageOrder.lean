/-
The stages of a pass in another order.

Stages only append, and what one appends is read by no other, with one exception: the
validation reads the properties, and those only the analysis appends.  So in any order that
`IsOrder`, with the analysis before the validation, what a stage adds and how it ends are its
`own`, wherever it stands, also behind a stage that fails.

A kind of items that one stage alone adds to then comes out the same in every order.
Components and reachable classes have several stages behind them, and come out in the order
of those.
-/
import ConfigBinder.Proofs.Binding.Run

namespace ConfigBinder

namespace Stage

/-! ### Orders and their outcome -/

/-- The stages of a pass. -/
def all : List Stage := [.producer, .analysis, .validation, .roots, .mappings]

/-- Each stage is taken once, and the analysis before the validation. -/
structure IsOrder (order : List Stage) : Prop where
  once : order.Perm all
  sorted : [.analysis, .validation].Sublist order

instance (order : List Stage) : Decidable (IsOrder order) :=
  decidable_of_iff (order.Perm all ∧ [.analysis, .validation].Sublist order)
    ⟨fun h => ⟨h.1, h.2⟩, fun h => ⟨h.once, h.sorted⟩⟩

/-- What has been collected when `runAll` has taken a row of stages. -/
def collected (context : BindingContext) (before : Collected) (stages : List Stage) : Collected :=
  ((runAll context before stages).map (·.1)).getLastD before

/-- How a stage ends that is taken in a row. -/
def resultIn? (context : BindingContext) (before : Collected) (stages : List Stage)
    (stage : Stage) : Option StageResult :=
  ((stages.zip (runAll context before stages)).lookup stage).map (·.2)

end Stage

/-- The same items, those of the kinds that several stages add to in another order. -/
structure Collected.SameItems (a b : Collected) : Prop where
  additional : a.additional = b.additional
  synthetic : a.synthetic.Perm b.synthetic
  reflective : a.reflective.Perm b.reflective
  generated : a.generated = b.generated
  properties : a.properties = b.properties
  mappings : a.mappings = b.mappings

namespace Stage

variable {context : BindingContext}

theorem collected_cons (before : Collected) (stage : Stage) (rest : List Stage) :
    collected context before (stage :: rest) =
      collected context (run context before stage).1 rest := by
  rw [collected, runAll, List.map_cons, List.getLastD_cons, collected]

private theorem resultIn?_cons_self (before : Collected) (stage : Stage) (rest : List Stage) :
    resultIn? context before (stage :: rest) stage =
      some (contribution context before stage).2 := by
  rw [resultIn?, runAll, List.zip_cons_cons, List.lookup_cons_self]
  rfl

private theorem resultIn?_cons_of_ne (before : Collected) {stage other : Stage} (rest : List Stage)
    (h : other ≠ stage) : resultIn? context before (stage :: rest) other =
      resultIn? context (run context before stage).1 rest other := by
  rw [resultIn?, runAll, List.zip_cons_cons, List.lookup_cons, beq_false_of_ne h, resultIn?]

/-! ### What a stage reads

`Ahead` is the invariant of a row that is half way through.  While the analysis is to come there
are no properties, and once it is through the properties are its own and it does not come
again.
-/

/-- A stage reads nothing but the properties collected before it. -/
theorem contribution_congr {before before' : Collected}
    (h : before.properties = before'.properties) (stage : Stage) :
    contribution context before stage = contribution context before' stage := by
  cases stage with
  | producer | analysis | roots | mappings => rfl
  | validation => rw [contribution, contribution, h]

/-- Only the `validation` reads anything. -/
theorem contribution_of_ne_validation (before before' : Collected) {stage : Stage}
    (h : stage ≠ .validation) :
    contribution context before stage = contribution context before' stage := by
  cases stage with
  | producer | analysis | roots | mappings => rfl
  | validation => exact absurd rfl h

/-- Only the `analysis` adds properties. -/
theorem properties_contribution_of_ne_analysis (before : Collected) {stage : Stage}
    (h : stage ≠ .analysis) : (contribution context before stage).1.properties = [] := by
  cases stage with
  | producer | validation | roots => rfl
  | analysis => exact absurd rfl h
  | mappings =>
      exact ConfigMapping.kind_bindAll_eq_nil (·.properties) rfl (fun _ _ => rfl)
        (fun _ _ _ _ => rfl) _

/-- What a stage adds and how it ends once the properties are those of the analysis. -/
def own (context : BindingContext) (stage : Stage) : Collected × StageResult :=
  contribution context (analysisItems context).1 stage

/-- Stages that are still to be taken: the analysis before the validation while there are no
properties, and no analysis any more when its properties are there. -/
def Ahead (context : BindingContext) (before : Collected) (stages : List Stage) : Prop :=
  (before.properties = [] ∧ [.analysis, .validation].Sublist stages ∧ stages.Nodup) ∨
    (before.properties = (analysisItems context).1.properties ∧ .analysis ∉ stages)

/-- The next stage does what is its `own`, and the others are still `Ahead`. -/
theorem Ahead.step {before : Collected} {stage : Stage} {rest : List Stage}
    (h : Ahead context before (stage :: rest)) :
    contribution context before stage = own context stage ∧
      Ahead context (run context before stage).1 rest := by
  rcases h with ⟨hnone, hsorted, hnodup⟩ | ⟨hproperties, hbehind⟩
  · obtain ⟨hnot, hnodup⟩ := List.nodup_cons.mp hnodup
    by_cases hanalysis : stage = .analysis
    · subst hanalysis
      refine ⟨rfl, Or.inr ⟨?_, hnot⟩⟩
      show before.properties ++ (analysisItems context).1.properties = _
      rw [hnone, List.nil_append]
    · -- the validation stands behind the analysis, so this stage reads nothing
      have hrest : [.analysis, .validation].Sublist rest := by
        cases hsorted with
        | cons _ h => exact h
        | cons_cons _ h => exact absurd rfl hanalysis
      have hvalidation : stage ≠ .validation := by
        intro hstage
        exact hnot (hstage ▸ hrest.subset (by simp))
      refine ⟨contribution_of_ne_validation _ _ hvalidation, Or.inl ⟨?_, hrest, hnodup⟩⟩
      show before.properties ++ (contribution context before stage).1.properties = _
      rw [hnone, properties_contribution_of_ne_analysis before hanalysis, List.append_nil]
  · -- the properties are those of the analysis, and stay so
    have hanalysis : stage ≠ .analysis := by
      intro hstage
      exact hbehind (hstage ▸ List.mem_cons_self)
    refine ⟨contribution_congr hproperties stage, Or.inr ⟨?_, ?_⟩⟩
    · show before.properties ++ (contribution context before stage).1.properties = _
      rw [hproperties, properties_contribution_of_ne_analysis before hanalysis, List.append_nil]
    · intro hmem
      exact hbehind (List.mem_cons_of_mem _ hmem)

/-! ### A whole order

Behind `Ahead` each stage ends as its own, and a kind of items is what the stages add to it, one
behind another.  Another order has the same parts.
-/

/-- A stage that is `Ahead` ends as is its `own`. -/
theorem resultIn?_of_ahead {stage : Stage} (stages : List Stage) :
    ∀ {before : Collected}, Ahead context before stages → stage ∈ stages →
      resultIn? context before stages stage = some (own context stage).2 := by
  induction stages with
  | nil => intro before _ hmem; exact nomatch hmem
  | cons next rest ih =>
      intro before hahead hmem
      obtain ⟨hown, hrest⟩ := hahead.step
      by_cases hnext : stage = next
      · subst hnext
        rw [resultIn?_cons_self, hown]
      · rw [resultIn?_cons_of_ne before rest hnext]
        exact ih hrest (List.mem_of_ne_of_mem hnext hmem)

/-- Each kind of items is what the stages that are `Ahead` add of their `own`, in their order. -/
theorem kind_collected_of_ahead {α : Type} (kind : Collected → List α)
    (happend : ∀ a b, kind (a ++ b) = kind a ++ kind b) (stages : List Stage) :
    ∀ {before : Collected}, Ahead context before stages →
      kind (collected context before stages) =
        kind before ++ stages.flatMap fun stage => kind (own context stage).1 := by
  induction stages with
  | nil => intro before _; simp [collected, runAll]
  | cons stage rest ih =>
      intro before hahead
      obtain ⟨hown, hrest⟩ := hahead.step
      have hrun : (run context before stage).1 = before ++ (own context stage).1 := by
        rw [← hown]
        rfl
      rw [collected_cons, ih hrest, hrun, happend, List.flatMap_cons, List.append_assoc]

private theorem flatMap_eq_of_unique {α : Type} {f : Stage → List α} {stage : Stage}
    {order : List Stage} (hnodup : order.Nodup) (hmem : stage ∈ order)
    (hothers : ∀ other, other ≠ stage → f other = []) : order.flatMap f = f stage := by
  obtain ⟨before, after, rfl⟩ := List.append_of_mem hmem
  obtain ⟨-, hafter, hapart⟩ := List.nodup_append.mp hnodup
  have hbefore : before.flatMap f = [] := by
    refine List.flatMap_eq_nil_iff.mpr fun other hother => hothers other ?_
    exact hapart other hother stage List.mem_cons_self
  have hrest : after.flatMap f = [] := by
    refine List.flatMap_eq_nil_iff.mpr fun other hother => hothers other ?_
    intro heq
    exact (List.nodup_cons.mp hafter).1 (heq ▸ hother)
  rw [List.flatMap_append, List.flatMap_cons, hbefore, hrest, List.append_nil, List.nil_append]

private theorem mem_of_isOrder {order : List Stage} (h : IsOrder order) (stage : Stage) :
    stage ∈ order := by
  rw [h.once.mem_iff]
  cases stage <;> decide

private theorem nodup_of_isOrder {order : List Stage} (h : IsOrder order) : order.Nodup :=
  h.once.nodup_iff.mpr (by decide)

private theorem ahead_of_isOrder {order : List Stage} (h : IsOrder order) : Ahead context ∅ order :=
  Or.inl ⟨rfl, h.sorted, nodup_of_isOrder h⟩

/-- A kind of items that one stage alone adds to comes out the same in every order. -/
theorem kind_collected_eq {α : Type} (kind : Collected → List α) (hempty : kind ∅ = [])
    (happend : ∀ a b, kind (a ++ b) = kind a ++ kind b) {stage : Stage}
    (hothers : ∀ other, other ≠ stage → kind (own context other).1 = []) {a b : List Stage}
    (ha : IsOrder a) (hb : IsOrder b) :
    kind (collected context ∅ a) = kind (collected context ∅ b) := by
  have hown : ∀ {order : List Stage}, IsOrder order →
      kind (collected context ∅ order) = kind (own context stage).1 := by
    intro order h
    rw [kind_collected_of_ahead kind happend order (ahead_of_isOrder h), hempty,
      List.nil_append]
    exact flatMap_eq_of_unique (nodup_of_isOrder h) (mem_of_isOrder h stage) hothers
  rw [hown ha, hown hb]

/-- A kind of items comes out with the same items in every order. -/
theorem kind_collected_perm {α : Type} (kind : Collected → List α) (hempty : kind ∅ = [])
    (happend : ∀ a b, kind (a ++ b) = kind a ++ kind b) {a b : List Stage} (ha : IsOrder a)
    (hb : IsOrder b) :
    (kind (collected context ∅ a)).Perm (kind (collected context ∅ b)) := by
  rw [kind_collected_of_ahead kind happend a (ahead_of_isOrder ha),
    kind_collected_of_ahead kind happend b (ahead_of_isOrder hb), hempty]
  exact (ha.once.trans hb.once.symm).flatMap_right _

/-! ### Which stage adds what -/

theorem analysisItems_own (context : BindingContext) :
    (analysisItems context).1.additional = [] ∧ (analysisItems context).1.generated = [] ∧
      (analysisItems context).1.mappings = [] := by
  unfold analysisItems
  split
  · exact ⟨rfl, rfl, rfl⟩
  · exact ⟨rfl, rfl, rfl⟩

theorem additional_own {stage : Stage} (h : stage ≠ .producer) :
    (own context stage).1.additional = [] := by
  cases stage with
  | producer => exact absurd rfl h
  | analysis => exact (analysisItems_own context).1
  | validation | roots => rfl
  | mappings =>
      exact ConfigMapping.kind_bindAll_eq_nil (·.additional) rfl (fun _ _ => rfl)
        (fun _ _ _ _ => rfl) _

theorem generated_own {stage : Stage} (h : stage ≠ .mappings) :
    (own context stage).1.generated = [] := by
  cases stage with
  | analysis => exact (analysisItems_own context).2.1
  | producer | validation | roots => rfl
  | mappings => exact absurd rfl h

theorem mappings_own {stage : Stage} (h : stage ≠ .mappings) :
    (own context stage).1.mappings = [] := by
  cases stage with
  | analysis => exact (analysisItems_own context).2.2
  | producer | validation | roots => rfl
  | mappings => exact absurd rfl h

theorem sameItems_of_isOrder (context : BindingContext) {a b : List Stage} (ha : IsOrder a)
    (hb : IsOrder b) : (collected context ∅ a).SameItems (collected context ∅ b) where
  additional :=
    kind_collected_eq (·.additional) rfl (fun _ _ => rfl) (fun _ => additional_own) ha hb
  synthetic := kind_collected_perm (·.synthetic) rfl (fun _ _ => rfl) ha hb
  reflective := kind_collected_perm (·.reflective) rfl (fun _ _ => rfl) ha hb
  generated :=
    kind_collected_eq (·.generated) rfl (fun _ _ => rfl) (fun _ => generated_own) ha hb
  properties :=
    kind_collected_eq (·.properties) rfl (fun _ _ => rfl)
      (fun _ => properties_contribution_of_ne_analysis _) ha hb
  mappings := kind_collected_eq (·.mappings) rfl (fun _ _ => rfl) (fun _ => mappings_own) ha hb

/-! ### A whole pass -/

theorem collected_of_run {o : BuildOutput} (h : context.run = .ok o) :
    collected context ∅ all = o.items := by
  obtain ⟨found, added, ha, hg, rfl⟩ := BindingContext.run_eq_ok_iff.mp h
  obtain ⟨hadditional, hproperties, -, -⟩ := ConfigMapping.bindAll_ok context _ hg
  simp [all, collected, runAll, run, contribution, analysisItems_of_ok ha, hg,
    BindingContext.output, Provider.register, Collected.append_def, Collected.append,
    hadditional, hproperties]

private theorem validation_of_run {o : BuildOutput} (h : context.run = .ok o) :
    (own context .validation).2 = .grouped o.plan.propertyTypes := by
  obtain ⟨found, added, ha, hg, rfl⟩ := BindingContext.run_eq_ok_iff.mp h
  rw [own, analysisItems_of_ok ha]
  rfl

private theorem not_failed_of_run {o : BuildOutput} (h : context.run = .ok o) (stage : Stage)
    (e : BindingError) : (own context stage).2 ≠ .failed e := by
  obtain ⟨found, added, ha, hg, rfl⟩ := BindingContext.run_eq_ok_iff.mp h
  cases stage with
  | producer | validation | roots => simp [own, contribution]
  | analysis => simp [own, contribution, analysisItems_of_ok ha, resultOf]
  | mappings => simp [own, contribution, hg, resultOf]

/--
**The order of the stages does not matter.**  In any two orders every stage ends alike, so
the properties are grouped alike, and the same items are collected; the kinds that one stage
alone adds to come out as equal lists.  A pass that succeeds has the items of any order, with
its plan, and no stage of an order fails.
-/
theorem order_irrelevant (context : BindingContext) (a b : List Stage) (ha : IsOrder a)
    (hb : IsOrder b) :
    (∀ stage, ∃ result, resultIn? context ∅ a stage = some result ∧
        resultIn? context ∅ b stage = some result) ∧
      (collected context ∅ a).SameItems (collected context ∅ b) ∧
      ∀ o, context.run = .ok o →
        o.items.SameItems (collected context ∅ a) ∧
          resultIn? context ∅ a .validation = some (.grouped o.plan.propertyTypes) ∧
          o.plan.mappings = MappingBinding.ofMappings (collected context ∅ a).mappings ∧
          ∀ stage e, resultIn? context ∅ a stage ≠ some (.failed e) := by
  have hresult : ∀ {order : List Stage}, IsOrder order → ∀ stage,
      resultIn? context ∅ order stage = some (own context stage).2 := by
    intro order h stage
    exact resultIn?_of_ahead order (ahead_of_isOrder h) (mem_of_isOrder h stage)
  refine ⟨?_, sameItems_of_isOrder context ha hb, ?_⟩
  · intro stage
    exact ⟨_, hresult ha stage, hresult hb stage⟩
  · intro o hrun
    have hall : IsOrder all := by decide
    have hitems : o.items.SameItems (collected context ∅ a) := by
      rw [← collected_of_run hrun]
      exact sameItems_of_isOrder context hall ha
    refine ⟨hitems, ?_, ?_, ?_⟩
    · rw [hresult ha, validation_of_run hrun]
    · rw [← hitems.mappings, BindingContext.plan_of_run hrun]
      rfl
    · intro stage e hfailed
      rw [hresult ha] at hfailed
      exact not_failed_of_run hrun stage e (Option.some.inj hfailed)

/-- A program with a second injection point that takes no value and a second mapping that is
not indexed, so that the analysis and the mappings both fail half-way. -/
def halting : Snapshot where
  classes := [⟨⟨"app.Server"⟩, none, true, []⟩]
  injectionPoints :=
    let asks : List Annotation := [⟨Settings.default.propertyQualifier, ∅⟩]
    [⟨.field ⟨"app.Main"⟩ "key", .named ⟨"app.Key"⟩, asks, false⟩,
      ⟨.onClass ⟨"app.Main"⟩, .named ⟨"app.Key"⟩, asks, false⟩]
  declarations :=
    [⟨⟨Settings.default.mappingAnnotation, ∅⟩, .onClass ⟨"app.Server"⟩⟩,
      ⟨⟨Settings.default.mappingAnnotation, ∅⟩, .onClass ⟨"app.Client"⟩⟩]
  configRoots := [⟨⟨"app.Root"⟩, .runtime⟩]

/-- The stages of that program from the usual order and from one that starts with the
mappings. -/
theorem order_irrelevant_halting :
    let context := halting.context .default
    let order : List Stage := [.mappings, .roots, .analysis, .validation, .producer]
    IsOrder all ∧ IsOrder order ∧
      resultIn? context ∅ all .analysis =
        some (.failed (.unsupportedTarget (.onClass ⟨"app.Main"⟩))) ∧
      (∀ stage, ∃ result, resultIn? context ∅ all stage = some result ∧
        resultIn? context ∅ order stage = some result) ∧
      (collected context ∅ all).SameItems (collected context ∅ order) ∧
      ∀ o, context.run = .ok o →
        o.items.SameItems (collected context ∅ all) ∧
          resultIn? context ∅ all .validation = some (.grouped o.plan.propertyTypes) ∧
          o.plan.mappings = MappingBinding.ofMappings (collected context ∅ all).mappings ∧
          ∀ stage e, resultIn? context ∅ all stage ≠ some (.failed e) :=
  ⟨by decide, by decide, rfl, order_irrelevant _ _ _ (by decide) (by decide)⟩

end Stage

end ConfigBinder
