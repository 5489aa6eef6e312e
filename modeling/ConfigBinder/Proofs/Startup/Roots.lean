/-
Configuration roots from their components to their values.

Two facts are needed, one for the build and one for run time.

  * A root that exists at run time gets one component, and its creator is found again from
    that component and from no other of a pass.  So the creators `among` the components of an
    output are those of these roots in their order, however often and in whatever order the
    stages are taken.
  * A slot holds what its root was last set to, and nothing once it has been cleared behind
    that (`LastSets`).  So a creator answers from the writes to its own root, and writes to
    other roots can be left out.
-/
import ConfigBinder.Proofs.Binding.Providers
import ConfigBinder.Proofs.Binding.StageOrder
import ConfigBinder.Proofs.Ordered
import ConfigBinder.Startup.RootSlots

namespace ConfigBinder

/-! ### The components of roots -/

namespace RootComponent

/-- The roots that exist at run time. -/
def exposed (roots : List ConfigRoot) : List ConfigRoot :=
  roots.filter fun r => r.phase = .buildAndRuntimeFixed ∨ r.phase = .runtime

/-- The root as a component: its class and nothing else is what it is provided as, each
injection point gets an instance of its own, and the creator knows class and phase. -/
def ofExposed (r : ConfigRoot) : Component where
  implementation := r.rootClass
  providerType := .named r.rootClass
  types := [.named r.rootClass]
  qualifiers := []
  scope := .dependent
  creator := .root r.rootClass r.phase
  params := ∅

theorem isRuntimeVisible_iff (p : ConfigPhase) :
    p.isRuntimeVisible = true ↔ p = .buildAndRuntimeFixed ∨ p = .runtime := by
  cases p <;> simp [ConfigPhase.isRuntimeVisible]

/-- `ofRoots` makes the components of the roots that are `exposed`, in order. -/
theorem ofRoots_eq_map (roots : List ConfigRoot) :
    ofRoots roots = (exposed roots).map ofExposed := by
  induction roots with
  | nil => rfl
  | cons r rest ih =>
      have hone : ofRoot? r =
          if r.phase = .buildAndRuntimeFixed ∨ r.phase = .runtime then some (ofExposed r)
          else none := by
        simp only [← isRuntimeVisible_iff]
        rfl
      rw [ofRoots, exposed, List.filterMap_cons, List.filter_cons, hone]
      by_cases hphase : r.phase = .buildAndRuntimeFixed ∨ r.phase = .runtime
      · simp only [hphase, decide_true, if_true, List.map_cons]
        exact congrArg _ ih
      · simp only [hphase, decide_false, if_false]
        exact ih

end RootComponent

namespace RootCreator

/-- The creator that knows a root. -/
def ofRoot (r : ConfigRoot) : RootCreator := ⟨r.rootClass, r.phase⟩

/-- The creators that `ofComponent?` finds again among components. -/
def among (components : List Component) : List RootCreator := components.filterMap ofComponent?

private theorem among_append (a b : List Component) : among (a ++ b) = among a ++ among b :=
  List.filterMap_append

/-- `ofComponent?` finds the creators of roots again from their components. -/
theorem map_ofComponent?_ofRoots (roots : List ConfigRoot) :
    (RootComponent.ofRoots roots).map ofComponent? =
      (RootComponent.exposed roots).map fun r => some (ofRoot r) := by
  rw [RootComponent.ofRoots_eq_map, List.map_map]
  rfl

private theorem among_ofRoots (roots : List ConfigRoot) :
    among (RootComponent.ofRoots roots) = (RootComponent.exposed roots).map ofRoot := by
  rw [RootComponent.ofRoots_eq_map, among, List.filterMap_map]
  exact congrFun (List.filterMap_eq_map (f := ofRoot)) _

/-- Components that convert a value or implement a mapping have no root behind them, and all
others have. -/
theorem ofComponent?_eq_none_iff (c : Component) :
    ofComponent? c = none ↔ c.isConverting = true ∨ c.isOfMapping = true := by
  unfold ofComponent? Component.isConverting Component.isOfMapping
  cases c.creator <;> simp

private theorem among_eq_nil {components : List Component}
    (h : ∀ c ∈ components, c.isConverting = true ∨ c.isOfMapping = true) :
    among components = [] :=
  List.filterMap_eq_nil_iff.mpr fun c hc => (ofComponent?_eq_none_iff c).mpr (h c hc)

end RootCreator

/-! ### The creators of a pass -/

namespace Stage

open RootCreator

variable {context : BindingContext}

/-- The creators that a stage adds: those of all roots when it is the stage of the roots. -/
def rootCreators (context : BindingContext) (stage : Stage) : List RootCreator :=
  if stage = .roots then (RootComponent.exposed context.source.configRoots).map ofRoot else []

/-- A stage adds the creators of `rootCreators` and no others, also when it fails. -/
theorem among_contribution (before : Collected) (stage : Stage) :
    among (contribution context before stage).1.synthetic = rootCreators context stage := by
  cases stage with
  | producer | validation => rfl
  | roots => exact among_ofRoots _
  | analysis =>
      show among (analysisItems context).1.synthetic = []
      unfold analysisItems
      split
      · refine among_eq_nil ?_
        intro c hc
        obtain ⟨t, -, rfl⟩ := List.mem_map.mp hc
        exact Or.inl rfl
      · rfl
  | mappings =>
      exact ConfigMapping.kind_bindAll_eq_nil (fun c => among c.synthetic) rfl
        (fun a b => among_append _ _) (fun _ _ _ _ => rfl) _

/-- So a row of stages adds `rootCreators` each time it takes the stage of the roots. -/
theorem among_collected (stages : List Stage) : ∀ before : Collected,
    among (collected context before stages).synthetic =
      among before.synthetic ++ stages.flatMap (rootCreators context) := by
  induction stages with
  | nil => intro before; exact (List.append_nil _).symm
  | cons stage rest ih =>
      intro before
      rw [collected_cons, ih, List.flatMap_cons, ← List.append_assoc]
      refine congrArg (· ++ _) ?_
      show among (before.synthetic ++ (contribution context before stage).1.synthetic) = _
      rw [among_append, among_contribution]

end Stage

/-- What the creators of a program's roots are. -/
structure RootCreator.FoundAgain (context : BindingContext) (stages : List Stage) : Prop where
  /-- Among what is collected, a component has no root behind it just when it converts a
  value or implements a mapping. -/
  others : ∀ c ∈ (Stage.collected context ∅ stages).synthetic,
    RootCreator.ofComponent? c = none ↔ c.isConverting = true ∨ c.isOfMapping = true
  /-- The creators are those of all roots, in order, once for each time that the roots were
  registered. -/
  creators : RootCreator.among (Stage.collected context ∅ stages).synthetic =
    (stages.filter (· = .roots)).flatMap fun _ =>
      (RootComponent.exposed context.source.configRoots).map RootCreator.ofRoot
  /-- The creators of a pass that succeeds are those of all roots. -/
  pass : ∀ o, context.run = .ok o → RootCreator.among o.items.synthetic =
    (RootComponent.exposed context.source.configRoots).map RootCreator.ofRoot

theorem RootCreator.foundAgain (context : BindingContext) (stages : List Stage) :
    RootCreator.FoundAgain context stages where
  others c _ := ofComponent?_eq_none_iff c
  creators := by
    rw [Stage.among_collected stages ∅]
    show stages.flatMap _ = _
    induction stages with
    | nil => rfl
    | cons stage rest ih =>
        rw [List.flatMap_cons, List.filter_cons, ih]
        by_cases hstage : stage = .roots
        · simp [hstage, Stage.rootCreators]
        · simp [hstage, Stage.rootCreators]
  pass o hrun := by
    rw [← Stage.collected_of_run hrun, Stage.among_collected]
    show _ ++ (_ ++ []) = _
    rw [List.append_nil]
    rfl

/-! ### Writes to slots

A row of writes grows at its end, since a slot is told by the last write to its root.  Each write
is a step of `RootSlots`, so what one does to the slots is all that has to be looked at.
-/

namespace RootSlots

variable {Value : Type}

/-- What is done to a slot. -/
inductive Write (Value : Type) where
  | set (root : QualifiedName) (value : Value)
  | clear (root : QualifiedName)

namespace Write

/-- The root whose slot is written to. -/
def root : Write Value → QualifiedName
  | .set r _ => r
  | .clear r => r

/-- What the slot holds behind the write. -/
def value? : Write Value → Option Value
  | .set _ v => some v
  | .clear _ => none

end Write

/-- Does a write. -/
def write (s : RootSlots Value) : Write Value → RootSlots Value
  | .set r v => s.set r v
  | .clear r => s.clear r

/-- The slots behind a row of writes, empty before. -/
def after (writes : List (Write Value)) : RootSlots Value := writes.foldl write empty

/-- The last write to the root sets it to the value. -/
def LastSets (writes : List (Write Value)) (root : QualifiedName) (v : Value) : Prop :=
  ∃ earlier later, writes = earlier ++ .set root v :: later ∧ ∀ w ∈ later, w.root ≠ root

/-- One `write` changes the slot of its root and no other. -/
theorem get?_write (s : RootSlots Value) (w : Write Value) (root : QualifiedName) :
    (s.write w).get? root = if w.root = root then w.value? else s.get? root := by
  cases w with
  | set r v =>
      show (s.filled.insert r v).get? root = if r = root then some v else s.filled.get? root
      by_cases hroot : r = root
      · rw [if_pos hroot, hroot, OrderedMap.get?_insert_self]
      · rw [if_neg hroot, OrderedMap.get?_insert_of_ne _ _ (Ne.symm hroot)]
  | clear r =>
      show (s.filled.erase r).get? root = if r = root then none else s.filled.get? root
      rw [OrderedMap.get?_erase]
      simp only [Std.LawfulEqCmp.compare_eq_iff_eq]

private theorem after_append (writes : List (Write Value)) (w : Write Value) :
    after (writes ++ [w]) = (after writes).write w := by
  rw [after, List.foldl_append]
  rfl

/-- A write at the end is the one that `LastSets` its root, and leaves the last ones to others. -/
theorem lastSets_append_iff {writes : List (Write Value)} {w : Write Value}
    {root : QualifiedName} {v : Value} :
    LastSets (writes ++ [w]) root v ↔
      w = .set root v ∨ (w.root ≠ root ∧ LastSets writes root v) := by
  refine ⟨?_, ?_⟩
  · intro h
    obtain ⟨earlier, later, heq, hlater⟩ := h
    rcases List.eq_nil_or_concat' later with rfl | ⟨rest, last, rfl⟩
    · exact Or.inl (List.singleton_inj.mp (List.append_inj_right' heq rfl))
    · have hsplit : writes ++ [w] = (earlier ++ .set root v :: rest) ++ [last] := by
        rw [heq, List.append_assoc, List.cons_append]
      obtain ⟨hwrites, hlast⟩ := List.append_inj' hsplit rfl
      obtain rfl := List.singleton_inj.mp hlast
      refine Or.inr ⟨hlater w (by simp), earlier, rest, hwrites, ?_⟩
      intro x hx
      exact hlater x (List.mem_append_left _ hx)
  · intro h
    rcases h with rfl | ⟨hroot, earlier, later, rfl, hlater⟩
    · exact ⟨writes, [], rfl, fun x hx => nomatch hx⟩
    · refine ⟨earlier, later ++ [w], by simp, ?_⟩
      intro x hx
      rcases List.mem_append.mp hx with hx | hx
      · exact hlater x hx
      · rw [List.mem_singleton.mp hx]
        exact hroot

/-- **A slot holds what the last write to its root set it to.** -/
theorem get?_after_iff {writes : List (Write Value)} {root : QualifiedName} {v : Value} :
    (after writes).get? root = some v ↔ LastSets writes root v := by
  induction writes using List.reverseRecOn with
  | nil =>
      have hnone : (after ([] : List (Write Value))).get? root = none := rfl
      simp [hnone, LastSets]
  | append_singleton writes w ih =>
      rw [after_append, get?_write, lastSets_append_iff, ← ih]
      by_cases hroot : w.root = root
      · rw [if_pos hroot]
        cases w with
        | set r u => simp_all [Write.root, Write.value?]
        | clear r => simp_all [Write.root, Write.value?]
      · have hset : w ≠ .set root v := fun h => hroot (by rw [h]; rfl)
        simp [hroot, hset]

/-- Writes to other roots can be left out. -/
theorem get?_after_filter (writes : List (Write Value)) (root : QualifiedName) :
    (after (writes.filter (·.root = root))).get? root = (after writes).get? root := by
  induction writes using List.reverseRecOn with
  | nil => rfl
  | append_singleton writes w ih =>
      rw [List.filter_append, after_append, get?_write]
      by_cases hroot : w.root = root
      · rw [List.filter_cons_of_pos (by simpa using hroot), List.filter_nil, after_append,
          get?_write]
        simp only [if_pos hroot]
      · rw [List.filter_cons_of_neg (by simpa using hroot), List.filter_nil, List.append_nil,
          if_neg hroot, ih]

end RootSlots

/-! ### What creators answer -/

namespace RootCreator

open RootSlots

variable {Value Kind : Type} [Typed Value Kind] [DecidableEq Kind] {c : RootCreator}
  {slots : RootSlots Value} {v : Value} {e : CreationError} {type : Kind}

omit [Typed Value Kind] [DecidableEq Kind] in
theorem create_eq_ok_iff : c.create slots = .ok v ↔ slots.get? c.root = some v := by
  unfold create
  cases slots.get? c.root <;> simp

omit [Typed Value Kind] [DecidableEq Kind] in
theorem create_eq_error_iff : c.create slots = .error e ↔
    e = .notInitialized c.root c.phase ∧ ∀ v, slots.get? c.root ≠ some v := by
  unfold create
  cases slots.get? c.root <;> simp [eq_comm]

/-- Asked for a type, the creator looks at the type of what the slot holds. -/
theorem createAs_of_get?_eq_some (h : slots.get? c.root = some v) : c.createAs type slots =
    if Typed.type v = type then .ok v else .error (.typeMismatch c.root) := by
  unfold createAs create
  rw [h]
  rfl

theorem createAs_of_get?_eq_none (h : slots.get? c.root = none) :
    c.createAs type slots = .error (.notInitialized c.root c.phase) := by
  unfold createAs create
  rw [h]
  rfl

theorem createAs_eq_ok_iff : c.createAs type slots = .ok v ↔
    slots.get? c.root = some v ∧ Typed.type v = type := by
  cases hslot : slots.get? c.root with
  | none => simp [createAs_of_get?_eq_none hslot]
  | some u =>
      rw [createAs_of_get?_eq_some hslot]
      by_cases htype : Typed.type u = type
      · rw [if_pos htype, Except.ok.injEq, Option.some.injEq]
        exact ⟨fun h => ⟨h, h ▸ htype⟩, fun h => h.1⟩
      · rw [if_neg htype, Option.some.injEq]
        refine ⟨?_, ?_⟩
        · intro h
          exact nomatch h
        · intro h
          exact absurd (h.1 ▸ h.2) htype

theorem createAs_eq_error_iff : c.createAs type slots = .error e ↔
    (e = .notInitialized c.root c.phase ∧ ∀ v, slots.get? c.root ≠ some v) ∨
      (e = .typeMismatch c.root ∧ ∃ v, slots.get? c.root = some v ∧ Typed.type v ≠ type) := by
  cases hslot : slots.get? c.root with
  | none => simp [createAs_of_get?_eq_none hslot, eq_comm]
  | some u =>
      rw [createAs_of_get?_eq_some hslot]
      by_cases htype : Typed.type u = type
      · simp [htype]
      · rw [if_neg htype]
        refine ⟨?_, ?_⟩
        · intro h
          exact Or.inr ⟨(Except.error.inj h).symm, u, rfl, htype⟩
        · intro h
          rcases h with ⟨-, hnone⟩ | ⟨rfl, -⟩
          · exact absurd rfl (hnone u)
          · rfl

/-- What a creator answers behind a row of writes. -/
structure AnswersLast (Kind : Type) [Typed Value Kind] [DecidableEq Kind]
    (writes : List (Write Value)) (c : RootCreator) : Prop where
  /-- It gives what `LastSets` its root, when no clear stands behind. -/
  created : ∀ v, c.create (after writes) = .ok v ↔ LastSets writes c.root v
  /-- Else it fails, with its class and its phase. -/
  refused : ∀ e, c.create (after writes) = .error e ↔
    e = .notInitialized c.root c.phase ∧ ∀ v, ¬ LastSets writes c.root v
  /-- Asked for a type, it gives that value when it is of the type. -/
  createdAs : ∀ (type : Kind) v, c.createAs type (after writes) = .ok v ↔
    LastSets writes c.root v ∧ Typed.type v = type
  /-- Else it fails, for its class, as it does unasked or because the type is another. -/
  refusedAs : ∀ (type : Kind) e, c.createAs type (after writes) = .error e ↔
    (e = .notInitialized c.root c.phase ∧ ∀ v, ¬ LastSets writes c.root v) ∨
      (e = .typeMismatch c.root ∧ ∃ v, LastSets writes c.root v ∧ Typed.type v ≠ type)
  /-- Any other writes with the same ones to its root give the same answers. -/
  alone : ∀ others : List (Write Value),
    others.filter (·.root = c.root) = writes.filter (·.root = c.root) →
      c.create (after others) = c.create (after writes) ∧
        ∀ type : Kind, c.createAs type (after others) = c.createAs type (after writes)

theorem answersLast (writes : List (Write Value)) (c : RootCreator) :
    AnswersLast Kind writes c where
  created v := by rw [create_eq_ok_iff, get?_after_iff]
  refused e := by simp only [create_eq_error_iff, get?_after_iff, ne_eq]
  createdAs type v := by rw [createAs_eq_ok_iff, get?_after_iff]
  refusedAs type e := by simp only [createAs_eq_error_iff, get?_after_iff, ne_eq]
  alone others h := by
    have hslot : (after others).get? c.root = (after writes).get? c.root := by
      rw [← get?_after_filter others, h, get?_after_filter]
    have hcreate : c.create (after others) = c.create (after writes) := by
      unfold create
      rw [hslot]
    refine ⟨hcreate, ?_⟩
    intro type
    unfold createAs
    rw [hcreate]

/--
**Creators and slots agree from the build to the last write.**  The components of any roots
are those of the ones that exist at run time, one each and in order, and the creator of each
is found again with its class and phase; nothing else that stages collect passes for a
root.  Behind any row of writes every creator answers for the last write to its own class.
-/
theorem roots_agree (roots : List ConfigRoot) (context : BindingContext) (stages : List Stage)
    (writes : List (Write Value)) :
    RootComponent.ofRoots roots =
        (RootComponent.exposed roots).map RootComponent.ofExposed ∧
      (RootComponent.ofRoots roots).map ofComponent? =
        (RootComponent.exposed roots).map (fun r => some (ofRoot r)) ∧
      FoundAgain context stages ∧ ∀ c, AnswersLast Kind writes c :=
  ⟨RootComponent.ofRoots_eq_map roots, map_ofComponent?_ofRoots roots, foundAgain context stages,
    fun c => answersLast writes c⟩

end RootCreator

end ConfigBinder
