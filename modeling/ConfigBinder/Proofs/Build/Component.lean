/-
What a row of steps makes of a component.

A step is of one of six kinds and has a say in one part of the component.  Types and
qualifiers gather in order, and everything else, each parameter by itself, is as it was put
last.  What nobody put is filled in at the end and from the implementation alone, so it does
not matter when the steps were taken: the component is `MadeBy` what the steps of each kind
put, and rows that are the `SameByKind` make one component.
-/
import ConfigBinder.Build.Component
import ConfigBinder.Proofs.Ordered
import Mathlib.Data.List.Induction

namespace ConfigBinder.Component

/-! ### What a step puts -/

namespace Step

/-- The kinds of steps. -/
inductive Kind where
  | providerType
  | type
  | qualifier
  | scope
  | creator
  | param
  deriving DecidableEq, Repr

def kind : Step → Kind
  | .providerType _ => .providerType
  | .addType _ => .type
  | .addQualifier _ => .qualifier
  | .scope _ => .scope
  | .creator _ => .creator
  | .param _ _ => .param

/-- The provider type that a step states. -/
def providerType? : Step → Option TypeRef
  | .providerType t => some t
  | _ => none

/-- The type that a step adds. -/
def type? : Step → Option TypeRef
  | .addType t => some t
  | _ => none

/-- The qualifier that a step adds. -/
def qualifier? : Step → Option QualifiedName
  | .addQualifier q => some q
  | _ => none

/-- The scope that a step states. -/
def scope? : Step → Option Scope
  | .scope s => some s
  | _ => none

/-- The creator that a step states. -/
def creator? : Step → Option Creator
  | .creator c => some c
  | _ => none

/-- The value that a step sets a parameter to. -/
def param? (name : String) : Step → Option ParamValue
  | .param n v => if n = name then some v else none
  | _ => none

end Step

/-- The rows have the same steps of each kind, in the same order. -/
def SameByKind (xs ys : List Step) : Prop :=
  ∀ k : Step.Kind, xs.filter (·.kind = k) = ys.filter (·.kind = k)

section

variable {β : Type} {puts : Step → Option β} {xs ys : List Step}

/-- Behind one more step the last that was put is what the step puts, if it does. -/
theorem getLast?_filterMap_append (puts : Step → Option β) (steps : List Step) (s : Step) :
    ((steps ++ [s]).filterMap puts).getLast? =
      (puts s).or (steps.filterMap puts).getLast? := by
  rw [List.filterMap_append, List.getLast?_append]
  cases hs : puts s <;> simp [hs]

private theorem filterMap_append_singleton (puts : Step → Option β) (steps : List Step) (s : Step) :
    (steps ++ [s]).filterMap puts = steps.filterMap puts ++ (puts s).toList := by
  rw [List.filterMap_append]
  cases hs : puts s <;> simp [hs]

/-- What steps of one kind alone put is the same for rows that are the `SameByKind`. -/
theorem SameByKind.filterMap_eq (h : SameByKind xs ys) (k : Step.Kind)
    (hputs : ∀ s, s.kind = k ∨ puts s = none) : xs.filterMap puts = ys.filterMap puts := by
  have hkind : ∀ l : List Step, (l.filter (·.kind = k)).filterMap puts = l.filterMap puts := by
    intro l
    rw [List.filterMap_filter]
    refine List.filterMap_congr ?_
    intro s _
    rcases hputs s with hs | hs <;> simp [hs]
  rw [← hkind xs, h k, hkind ys]

end

/-! ### What a draft holds

`Draft.Holds` is what a draft owes to the steps taken so far.  Rows grow at their end here: a
step more is one more put behind the others, which is what "last" needs.
-/

namespace Draft

variable {implementation : QualifiedName} {steps : List Step} {d : Draft}

private theorem implementation_step (d : Draft) (s : Step) :
    (d.step s).implementation = d.implementation := by
  cases s <;> rfl

private theorem providerType_step (d : Draft) (s : Step) :
    (d.step s).providerType = s.providerType?.or d.providerType := by
  cases s <;> rfl

private theorem types_step (d : Draft) (s : Step) :
    (d.step s).types = d.types ++ s.type?.toList := by
  cases s <;> simp [step, Step.type?]

private theorem qualifiers_step (d : Draft) (s : Step) :
    (d.step s).qualifiers = d.qualifiers ++ s.qualifier?.toList := by
  cases s <;> simp [step, Step.qualifier?]

private theorem scope_step (d : Draft) (s : Step) : (d.step s).scope = s.scope?.getD d.scope := by
  cases s <;> rfl

private theorem creator_step (d : Draft) (s : Step) :
    (d.step s).creator = s.creator?.or d.creator := by
  cases s <;> rfl

private theorem get?_params_step (d : Draft) (s : Step) (name : String) :
    (d.step s).params.get? name = (s.param? name).or (d.params.get? name) := by
  cases s with
  | param n v =>
      show (d.params.insert n v).get? name = (if n = name then some v else none).or _
      by_cases hn : n = name
      · rw [if_pos hn, hn, OrderedMap.get?_insert_self, Option.some_or]
      · rw [if_neg hn, OrderedMap.get?_insert_of_ne _ _ (Ne.symm hn), Option.none_or]
  | providerType _ | addType _ | addQualifier _ | scope _ | creator _ => rfl

/-- The draft holds what the steps put: the last of what they state, and all of what they
add. -/
structure Holds (implementation : QualifiedName) (steps : List Step) (d : Draft) : Prop where
  backing : d.implementation = implementation
  providerType : d.providerType = (steps.filterMap Step.providerType?).getLast?
  types : d.types = steps.filterMap Step.type?
  qualifiers : d.qualifiers = steps.filterMap Step.qualifier?
  scope : d.scope = (steps.filterMap Step.scope?).getLast?.getD .dependent
  creator : d.creator = (steps.filterMap Step.creator?).getLast?
  params : ∀ name, d.params.get? name = (steps.filterMap (Step.param? name)).getLast?

private theorem holds_start (implementation : QualifiedName) :
    (start implementation).Holds implementation [] where
  backing := rfl
  providerType := rfl
  types := rfl
  qualifiers := rfl
  scope := rfl
  creator := rfl
  params _ := rfl

/-- A draft that `Holds` what some steps put, and takes one more, holds what these and that one
put. -/
theorem Holds.step (h : d.Holds implementation steps) (s : Step) :
    (d.step s).Holds implementation (steps ++ [s]) where
  backing := by rw [implementation_step, h.backing]
  providerType := by rw [providerType_step, h.providerType, getLast?_filterMap_append]
  types := by rw [types_step, h.types, filterMap_append_singleton]
  qualifiers := by rw [qualifiers_step, h.qualifiers, filterMap_append_singleton]
  scope := by
    rw [scope_step, h.scope, getLast?_filterMap_append]
    cases s.scope? <;> rfl
  creator := by rw [creator_step, h.creator, getLast?_filterMap_append]
  params name := by rw [get?_params_step, h.params, getLast?_filterMap_append]

/-- After any row of steps the draft `Holds` what they put. -/
theorem holds_foldl (implementation : QualifiedName) (steps : List Step) :
    (steps.foldl step (start implementation)).Holds implementation steps := by
  induction steps using List.reverseRecOn with
  | nil => exact holds_start implementation
  | append_singleton steps s ih =>
      rw [List.foldl_append]
      exact ih.step s

end Draft

/-! ### The finished component -/

/-- The component is as the steps put it, with what none of them put filled in from the
implementation. -/
structure MadeBy (implementation : QualifiedName) (steps : List Step) (c : Component) :
    Prop where
  backing : c.implementation = implementation
  /-- The last provider type, and else the implementation class. -/
  providerType : c.providerType =
    (steps.filterMap Step.providerType?).getLast?.getD (.named implementation)
  /-- There is always a type to inject the component as. -/
  injectable : c.types ≠ []
  /-- The added types in order, and the provider type alone when none was added. -/
  types : c.types = if steps.filterMap Step.type? = [] then [c.providerType]
    else steps.filterMap Step.type?
  /-- The added qualifiers in order. -/
  qualifiers : c.qualifiers = steps.filterMap Step.qualifier?
  /-- The last scope, and else the dependent one. -/
  scope : c.scope = (steps.filterMap Step.scope?).getLast?.getD .dependent
  /-- The last creator, and else the implementation converts a value. -/
  creator : c.creator = (steps.filterMap Step.creator?).getLast?.getD (.bean implementation)
  /-- A parameter has the value that it was set to last. -/
  params : ∀ name, c.param? name = (steps.filterMap (Step.param? name)).getLast?
  /-- No parameter is there that was not set. -/
  named : ∀ name, name ∈ c.params.keys ↔ ∃ value, Step.param name value ∈ steps

variable {implementation : QualifiedName} {steps xs ys : List Step} {c : Component}

/-- A parameter has a last value just when some step sets it. -/
theorem exists_getLast?_param_iff {name : String} :
    (∃ value, (steps.filterMap (Step.param? name)).getLast? = some value) ↔
      ∃ value, Step.param name value ∈ steps := by
  have hsets : ∀ s value, Step.param? name s = some value ↔ s = .param name value := by
    intro s value
    cases s <;> simp [Step.param?]
  refine ⟨?_, ?_⟩
  · intro h
    obtain ⟨value, hlast⟩ := h
    obtain ⟨s, hs, hset⟩ := List.mem_filterMap.mp (List.mem_of_getLast? hlast)
    exact ⟨value, (hsets s value).mp hset ▸ hs⟩
  · intro h
    obtain ⟨value, hs⟩ := h
    have hmem : value ∈ steps.filterMap (Step.param? name) :=
      List.mem_filterMap.mpr ⟨_, hs, (hsets _ value).mpr rfl⟩
    exact ⟨_, List.getLast?_eq_some_getLast (List.ne_nil_of_mem hmem)⟩

/-- `finish` makes of a draft that `Holds` what the steps put the component `MadeBy` them. -/
theorem Draft.Holds.finish {d : Draft} (h : d.Holds implementation steps) :
    MadeBy implementation steps d.finish where
  backing := h.backing
  providerType := by
    show d.providerType.getD (.named d.implementation) = _
    rw [h.providerType, h.backing]
  injectable := by
    show (if d.types.isEmpty then [_] else d.types) ≠ []
    by_cases hempty : d.types.isEmpty = true
    · simp [hempty]
    · rw [if_neg hempty]
      simpa using hempty
  types := by
    show (if d.types.isEmpty then [_] else d.types) = _
    rw [h.types]
    simp only [List.isEmpty_iff]
    rfl
  qualifiers := h.qualifiers
  scope := h.scope
  creator := by
    show d.creator.getD (.bean d.implementation) = _
    rw [h.creator, h.backing]
  params := h.params
  named name := by
    rw [← exists_getLast?_param_iff, OrderedMap.mem_keys_iff]
    simp only [← h.params]
    rfl

/-- What the steps put tells the component that is `MadeBy` them. -/
theorem MadeBy.unique {c' : Component} (h : MadeBy implementation steps c)
    (h' : MadeBy implementation steps c') : c = c' := by
  have hprovider : c.providerType = c'.providerType := h.providerType.trans h'.providerType.symm
  have htypes : c.types = c'.types := by rw [h.types, h'.types, hprovider]
  have hparams : c.params = c'.params :=
    OrderedMap.ext_get? fun name => (h.params name).trans (h'.params name).symm
  cases c
  cases c'
  simp only [mk.injEq]
  exact ⟨h.backing.trans h'.backing.symm, hprovider, htypes,
    h.qualifiers.trans h'.qualifiers.symm, h.scope.trans h'.scope.symm,
    h.creator.trans h'.creator.symm, hparams⟩

theorem madeBy_iff : MadeBy implementation steps c ↔ c = build implementation steps := by
  have hbuild : MadeBy implementation steps (build implementation steps) :=
    (Draft.holds_foldl implementation steps).finish
  exact ⟨fun h => h.unique hbuild, fun h => h ▸ hbuild⟩

/-- Rows that are the `SameByKind` make the same. -/
theorem MadeBy.of_sameByKind (h : MadeBy implementation xs c) (hsame : SameByKind xs ys) :
    MadeBy implementation ys c := by
  have hprovider : xs.filterMap Step.providerType? = ys.filterMap Step.providerType? :=
    hsame.filterMap_eq .providerType fun s => by cases s <;> simp [Step.kind, Step.providerType?]
  have htypes : xs.filterMap Step.type? = ys.filterMap Step.type? :=
    hsame.filterMap_eq .type fun s => by cases s <;> simp [Step.kind, Step.type?]
  have hqualifiers : xs.filterMap Step.qualifier? = ys.filterMap Step.qualifier? :=
    hsame.filterMap_eq .qualifier fun s => by cases s <;> simp [Step.kind, Step.qualifier?]
  have hscope : xs.filterMap Step.scope? = ys.filterMap Step.scope? :=
    hsame.filterMap_eq .scope fun s => by cases s <;> simp [Step.kind, Step.scope?]
  have hcreator : xs.filterMap Step.creator? = ys.filterMap Step.creator? :=
    hsame.filterMap_eq .creator fun s => by cases s <;> simp [Step.kind, Step.creator?]
  have hparams : ∀ name, xs.filterMap (Step.param? name) = ys.filterMap (Step.param? name) :=
    fun name => hsame.filterMap_eq .param fun s => by cases s <;> simp [Step.kind, Step.param?]
  refine ⟨h.backing, hprovider ▸ h.providerType, h.injectable, htypes ▸ h.types,
    hqualifiers ▸ h.qualifiers, hscope ▸ h.scope, hcreator ▸ h.creator, ?_, ?_⟩
  · intro name
    rw [h.params, hparams]
  · intro name
    rw [h.named, ← exists_getLast?_param_iff, hparams, exists_getLast?_param_iff]

/--
**Steps of different kinds commute, and the last word counts.**  Rows that have the same steps
of each kind, in the order of that kind, make the same component from one implementation.  The
component of a row is the one that its steps make: types and qualifiers as they were added, the
provider type alone when no type was; provider type, scope, creator and each parameter as they
were put last, the first three else as the implementation has it.
-/
theorem steps_commute (implementation : QualifiedName) (xs ys : List Step) :
    (SameByKind xs ys → build implementation xs = build implementation ys) ∧
      ∀ c, c = build implementation xs ↔ MadeBy implementation xs c := by
  refine ⟨?_, ?_⟩
  · intro hsame
    exact madeBy_iff.mp ((madeBy_iff.mpr rfl).of_sameByKind hsame)
  · intro c
    exact madeBy_iff.symm

/-- Steps of all kinds. -/
def allKinds : List Step :=
  [.scope .singleton, .addType (.named ⟨"org.acme.Foo"⟩), .param "size" (.text "1"),
    .providerType (.named ⟨"org.acme.Foo"⟩), .scope .dependent, .addQualifier ⟨"org.acme.Fast"⟩,
    .param "size" (.text "2"), .creator (.bean ⟨"org.acme.Maker"⟩),
    .addType (.named ⟨"org.acme.Bar"⟩)]

/-- The steps of `allKinds` sorted by kind. -/
def sortedByKind : List Step :=
  [.param "size" (.text "1"), .param "size" (.text "2"), .creator (.bean ⟨"org.acme.Maker"⟩),
    .addType (.named ⟨"org.acme.Foo"⟩), .addType (.named ⟨"org.acme.Bar"⟩),
    .addQualifier ⟨"org.acme.Fast"⟩, .scope .singleton, .scope .dependent,
    .providerType (.named ⟨"org.acme.Foo"⟩)]

theorem steps_commute_sorted :
    SameByKind allKinds sortedByKind ∧
      build ⟨"org.acme.Impl"⟩ allKinds = build ⟨"org.acme.Impl"⟩ sortedByKind := by
  have hsame : SameByKind allKinds sortedByKind := by
    intro k
    cases k <;> decide
  exact ⟨hsame, (steps_commute _ _ _).1 hsame⟩

end ConfigBinder.Component
