/-
Why a pass over a snapshot fails.

There are two faults.  A point may ask for a property on behalf of a method or a class,
which take no value (`IsMisplaced`), and a declaration may map a class that is not indexed
(`MapsMissing`).  The points are gone through before the declarations, and both walks end at
the first fault they meet, so a pass with several faults has the error of the first point, and
only without such a point that of the first declaration.  `FailsWith` has a constructor for
each of the two.

That nothing else fails rests on the manifests: every interface that loads has a group of
its own (`bind_of_loads`), so the emitter never comes back with nothing.
-/
import ConfigBinder.Proofs.Binding.Run

namespace ConfigBinder

/-! ### The first that fails

Both walks are of one form: an element is answered or has an error, and the first error ends it.
`FirstFailing` tells which error that is, for any such walk.
-/

theorem exists_first {α : Type} {P : α → Prop} {l : List α} (h : ∃ x ∈ l, P x) :
    ∃ before x after, l = before ++ x :: after ∧ P x ∧ ∀ y ∈ before, ¬ P y := by
  classical
  obtain ⟨x, hx, hP⟩ := h
  have hsome : (l.find? fun y => decide (P y)).isSome = true :=
    List.find?_isSome.mpr ⟨x, hx, by simpa using hP⟩
  obtain ⟨y, hy⟩ := Option.isSome_iff_exists.mp hsome
  obtain ⟨hPy, before, after, hsplit, hbefore⟩ := List.find?_eq_some_iff_append.mp hy
  exact ⟨before, y, after, hsplit, by simpa using hPy, fun z hz => by simpa using hbefore z hz⟩

section

variable {α β γ : Type} {f : α → Except BindingError β} {g : γ → Option α} {e : BindingError}

/-- Some element of the list has the error, and none before it has any. -/
def FirstFailing (f : α → Except BindingError β) (l : List α) (e : BindingError) : Prop :=
  ∃ before x after, l = before ++ x :: after ∧ f x = .error e ∧ ∀ y ∈ before, ∃ b, f y = .ok b

private theorem not_firstFailing_nil : ¬ FirstFailing f [] e := by
  intro h
  obtain ⟨before, x, after, heq, -⟩ := h
  simp at heq

private theorem firstFailing_cons_of_error {a : α} {e' : BindingError} (h : f a = .error e')
    (rest : List α) : FirstFailing f (a :: rest) e ↔ e' = e := by
  refine ⟨?_, ?_⟩
  · intro hfirst
    obtain ⟨before, x, after, heq, hx, hbefore⟩ := hfirst
    cases before with
    | nil =>
        obtain ⟨rfl, -⟩ := List.cons.inj heq
        rw [h] at hx
        exact Except.error.inj hx
    | cons b before =>
        obtain ⟨rfl, -⟩ := List.cons.inj heq
        obtain ⟨value, hvalue⟩ := hbefore a List.mem_cons_self
        rw [h] at hvalue
        exact nomatch hvalue
  · intro he
    exact ⟨[], a, rest, rfl, by rw [h, he], by simp⟩

private theorem firstFailing_cons_of_ok {a : α} {value : β} (h : f a = .ok value) (rest : List α) :
    FirstFailing f (a :: rest) e ↔ FirstFailing f rest e := by
  refine ⟨?_, ?_⟩
  · intro hfirst
    obtain ⟨before, x, after, heq, hx, hbefore⟩ := hfirst
    cases before with
    | nil =>
        obtain ⟨rfl, -⟩ := List.cons.inj heq
        rw [h] at hx
        exact nomatch hx
    | cons b before =>
        obtain ⟨-, rfl⟩ := List.cons.inj heq
        exact ⟨before, x, after, rfl, hx, fun y hy => hbefore y (List.mem_cons_of_mem _ hy)⟩
  · intro hfirst
    obtain ⟨before, x, after, rfl, hx, hbefore⟩ := hfirst
    refine ⟨a :: before, x, after, rfl, hx, ?_⟩
    intro y hy
    rcases List.mem_cons.mp hy with rfl | hy
    · exact ⟨value, h⟩
    · exact hbefore y hy

/-- The first that fails of what `filterMap` gives, seen in the list. -/
theorem firstFailing_filterMap {l : List γ} :
    FirstFailing f (l.filterMap g) e ↔ ∃ before x after, l = before ++ x :: after ∧
      (∃ a, g x = some a ∧ f a = .error e) ∧
      ∀ y ∈ before, ∀ a, g y = some a → ∃ b, f a = .ok b := by
  refine ⟨?_, ?_⟩
  · intro hfirst
    obtain ⟨before, a, after, heq, ha, hbefore⟩ := hfirst
    obtain ⟨l₁, l₂, rfl, rfl, h₂⟩ := List.filterMap_eq_append_iff.mp heq
    obtain ⟨skipped, x, l₃, rfl, hskipped, hx, rfl⟩ := List.filterMap_eq_cons_iff.mp h₂
    refine ⟨l₁ ++ skipped, x, l₃, by simp, ⟨a, hx, ha⟩, ?_⟩
    intro y hy b hb
    rcases List.mem_append.mp hy with hy | hy
    · exact hbefore b (List.mem_filterMap.mpr ⟨y, hy, hb⟩)
    · rw [hskipped y hy] at hb
      exact nomatch hb
  · intro hfirst
    obtain ⟨before, x, after, rfl, ⟨a, hx, ha⟩, hbefore⟩ := hfirst
    refine ⟨before.filterMap g, a, after.filterMap g, ?_, ha, ?_⟩
    · rw [List.filterMap_append, List.filterMap_cons_some hx]
    · intro b hb
      obtain ⟨y, hy, hyb⟩ := List.mem_filterMap.mp hb
      exact hbefore y hy b hyb

end

theorem scan_eq_error_iff {settings : Settings} {source : MetadataSource} {e : BindingError}
    (points : List InjectionPoint) :
    ∀ found : Unsupplied, (scan settings source found points).2 = .error e ↔
      FirstFailing (classify settings source) points e := by
  induction points with
  | nil =>
      intro found
      simp [scan, not_firstFailing_nil]
  | cons p rest ih =>
      intro found
      rw [scan]
      cases hc : classify settings source p with
      | error e' => simp [firstFailing_cons_of_error hc]
      | ok asked =>
          rw [firstFailing_cons_of_ok hc]
          cases asked with
          | none => exact ih found
          | some c => exact ih _

theorem ConfigMapping.bindAll_eq_error_iff {context : BindingContext} {e : BindingError}
    (mappings : List (QualifiedName × String)) :
    (bindAll context mappings).2 = .error e ↔
      FirstFailing (fun m => bind context m.1 m.2) mappings e := by
  induction mappings with
  | nil => simp [bindAll, not_firstFailing_nil]
  | cons m rest ih =>
      obtain ⟨interface, keyPrefix⟩ := m
      rw [bindAll]
      cases hb : bind context interface keyPrefix with
      | error e' =>
          rw [firstFailing_cons_of_error
            (f := fun m : QualifiedName × String => bind context m.1 m.2) hb]
          simp
      | ok added =>
          rw [firstFailing_cons_of_ok
            (f := fun m : QualifiedName × String => bind context m.1 m.2) hb]
          exact ih

/-! ### The faults of a snapshot -/

/-- The point carries the property qualifier on behalf of a method or a class. -/
def InjectionPoint.IsMisplaced (settings : Settings) (p : InjectionPoint) : Prop :=
  (∃ q, p.IsQualifiedBy settings q) ∧
    ((∃ c n, p.target = .method c n) ∨ ∃ n, p.target = .onClass n)

/-- The declaration maps the class of a name, and no class is indexed under it. -/
def Snapshot.MapsMissing (s : Snapshot) (settings : Settings) (d : Declaration)
    (name : QualifiedName) : Prop :=
  d.attached.name = settings.mappingAnnotation ∧ d.target = .onClass name ∧
    ∀ c ∈ s.classes, c.name ≠ name

/-- What a pass over a snapshot fails with. -/
inductive Snapshot.FailsWith (s : Snapshot) (settings : Settings) : BindingError → Prop
  /-- The first misplaced point decides, whatever is declared. -/
  | target {before after : List InjectionPoint} {p : InjectionPoint}
      (hpoints : s.injectionPoints = before ++ p :: after) (hp : p.IsMisplaced settings)
      (hbefore : ∀ q ∈ before, ¬ q.IsMisplaced settings) :
      FailsWith s settings (.unsupportedTarget p.target)
  /-- Without one, the first declaration of a class that is not indexed decides. -/
  | interface {before after : List Declaration} {d : Declaration} {name : QualifiedName}
      (hpoints : ∀ p ∈ s.injectionPoints, ¬ p.IsMisplaced settings)
      (hdeclared : s.declarations = before ++ d :: after) (hd : s.MapsMissing settings d name)
      (hbefore : ∀ x ∈ before, ∀ n, ¬ s.MapsMissing settings x n) :
      FailsWith s settings
        (.classLoading name s!"class {name.text} is not present in the index")

theorem InjectionTarget.member?_eq_none_iff {t : InjectionTarget} :
    t.member? = none ↔ (∃ c n, t = .method c n) ∨ ∃ n, t = .onClass n := by
  cases t <;> simp [member?]

section

variable {settings : Settings} {source : MetadataSource} {p : InjectionPoint}

theorem classify_of_isMisplaced (h : p.IsMisplaced settings) :
    classify settings source p = .error (.unsupportedTarget p.target) := by
  obtain ⟨⟨qualifier, hqualified⟩, htarget⟩ := h
  have hq := InjectionPoint.propertyQualifier?_eq_some_iff.mpr hqualified
  have hmember := InjectionTarget.member?_eq_none_iff.mpr htarget
  simp [classify, hq, classifyQualified, hmember, Except.map]

theorem classify_of_not_isMisplaced (h : ¬ p.IsMisplaced settings) :
    ∃ asked, classify settings source p = .ok asked := by
  unfold classify
  cases hq : propertyQualifier? settings p with
  | none => exact ⟨none, rfl⟩
  | some qualifier =>
      cases hmember : p.target.member? with
      | none =>
          have hqualified := InjectionPoint.propertyQualifier?_eq_some_iff.mp hq
          exact absurd ⟨⟨qualifier, hqualified⟩,
            InjectionTarget.member?_eq_none_iff.mp hmember⟩ h
      | some member =>
          simp only [classifyQualified, hmember]
          exact ⟨_, rfl⟩

end

namespace Snapshot

variable {s : Snapshot} {settings : Settings} {e : BindingError}

private theorem loader_of_missing {name : QualifiedName} (h : ∀ c ∈ s.classes, c.name ≠ name) :
    s.source.loader name = .error s!"class {name.text} is not present in the index" := by
  have hnone : s.source.classEntry? name = none :=
    List.find?_eq_none.mpr fun c hc => by simpa using h c hc
  rw [MetadataSource.loader, hnone]

private theorem loader_of_mem {c : ClassEntry} (h : c ∈ s.classes) :
    ∃ loaded, s.source.loader c.name = .ok loaded := by
  have hsome : (s.source.classEntry? c.name).isSome = true :=
    List.find?_isSome.mpr ⟨c, h, by simp⟩
  obtain ⟨found, hfound⟩ := Option.isSome_iff_exists.mp hsome
  rw [MetadataSource.loader, hfound]
  exact ⟨_, rfl⟩

/-- `bind` fails when the interface of a mapping is missing from the snapshot, and only for that
reason. -/
theorem bind_eq_error_iff {interface : QualifiedName} {keyPrefix : String} :
    ConfigMapping.bind (s.context settings) interface keyPrefix = .error e ↔
      (∀ c ∈ s.classes, c.name ≠ interface) ∧
        e = .classLoading interface s!"class {interface.text} is not present in the index" := by
  by_cases h : ∀ c ∈ s.classes, c.name ≠ interface
  · have hload : (s.context settings).loader interface = _ := loader_of_missing h
    simp only [ConfigMapping.bind, hload, Except.error.injEq]
    refine ⟨?_, ?_⟩
    · intro he
      exact ⟨h, he.symm⟩
    · intro he
      exact he.2.symm
  · obtain ⟨c, hc, hname⟩ : ∃ c ∈ s.classes, c.name = interface := by simpa using h
    obtain ⟨loaded, hload⟩ := loader_of_mem hc
    rw [hname] at hload
    obtain ⟨added, hadded⟩ := bind_of_loads settings keyPrefix hload
    simp [hadded, h]

/-! ### The two walks over a snapshot

The second walk goes through the declarations that are bound, which are those that `bound?` keeps,
so its first failure is looked for in these and found in the declarations again
(`firstFailing_filterMap`).
-/

theorem analyze_eq_error_iff :
    (analyze settings s.source).2 = .error e ↔ ∃ before p after,
      s.injectionPoints = before ++ p :: after ∧ p.IsMisplaced settings ∧
        (∀ q ∈ before, ¬ q.IsMisplaced settings) ∧ e = .unsupportedTarget p.target := by
  have hscan : (analyze settings s.source).2 = .error e ↔ _ := scan_eq_error_iff _ _
  rw [hscan]
  refine ⟨?_, ?_⟩
  · intro h
    obtain ⟨before, p, after, hpoints, hp, hbefore⟩ := h
    have hmisplaced : p.IsMisplaced settings := by
      by_contra hnot
      have hclassified : ∃ asked, classify settings s.source p = .ok asked :=
        classify_of_not_isMisplaced hnot
      obtain ⟨asked, hasked⟩ := hclassified
      rw [hasked] at hp
      exact nomatch hp
    rw [classify_of_isMisplaced hmisplaced] at hp
    refine ⟨before, p, after, hpoints, hmisplaced, ?_, (Except.error.inj hp).symm⟩
    intro q hq hqmisplaced
    obtain ⟨asked, hasked⟩ := hbefore q hq
    rw [classify_of_isMisplaced hqmisplaced] at hasked
    exact nomatch hasked
  · intro h
    obtain ⟨before, p, after, hpoints, hp, hbefore, rfl⟩ := h
    exact ⟨before, p, after, hpoints, classify_of_isMisplaced hp,
      fun q hq => classify_of_not_isMisplaced (hbefore q hq)⟩

/-- What a declaration binds that carries the mapping annotation. -/
def bound? (settings : Settings) (d : Declaration) : Option (QualifiedName × String) :=
  if d.attached.name = settings.mappingAnnotation then
    match d.target with
    | .onClass name => some (name, ConfigMapping.statedPrefix d)
    | _ => none
  else none

theorem bound?_eq_some_iff {d : Declaration} {m : QualifiedName × String} :
    bound? settings d = some m ↔ d.attached.name = settings.mappingAnnotation ∧
      d.target = .onClass m.1 ∧ m.2 = ConfigMapping.statedPrefix d := by
  unfold bound?
  by_cases ha : d.attached.name = settings.mappingAnnotation
  · rw [if_pos ha]
    cases d.target with
    | onClass name => simp [ha, Prod.ext_iff, eq_comm]
    | field c n | method c n => simp
  · simp [ha]

theorem declared_eq_filterMap (s : Snapshot) (settings : Settings) :
    ConfigMapping.declared (s.source.declarations settings.mappingAnnotation) =
      s.declarations.filterMap (bound? settings) := by
  show (s.declarations.filter _).filterMap _ = _
  rw [List.filterMap_filter]
  congr 1
  funext d
  simp only [decide_eq_true_eq]
  rfl

theorem generate_eq_error_iff :
    (ConfigMapping.generate (s.context settings)).2 = .error e ↔ ∃ before d after name,
      s.declarations = before ++ d :: after ∧ s.MapsMissing settings d name ∧
        (∀ x ∈ before, ∀ n, ¬ s.MapsMissing settings x n) ∧
        e = .classLoading name s!"class {name.text} is not present in the index" := by
  have hbind : (ConfigMapping.generate (s.context settings)).2 = .error e ↔ _ :=
    ConfigMapping.bindAll_eq_error_iff _
  have hdeclared : ConfigMapping.declared ((s.context settings).source.declarations
      (s.context settings).settings.mappingAnnotation) = _ := declared_eq_filterMap s settings
  rw [hbind, hdeclared, firstFailing_filterMap]
  refine ⟨?_, ?_⟩
  · intro h
    obtain ⟨before, d, after, hsplit, ⟨m, hm, he⟩, hbefore⟩ := h
    obtain ⟨hannotated, htarget, -⟩ := bound?_eq_some_iff.mp hm
    obtain ⟨hmissing, rfl⟩ := bind_eq_error_iff.mp he
    refine ⟨before, d, after, m.1, hsplit, ⟨hannotated, htarget, hmissing⟩, ?_, rfl⟩
    intro x hx n hn
    obtain ⟨hxannotated, hxtarget, hxmissing⟩ := hn
    obtain ⟨added, hadded⟩ := hbefore x hx (n, _)
      (bound?_eq_some_iff.mpr ⟨hxannotated, hxtarget, rfl⟩)
    rw [bind_eq_error_iff.mpr ⟨hxmissing, rfl⟩] at hadded
    exact nomatch hadded
  · intro h
    obtain ⟨before, d, after, name, hsplit, hd, hbefore, rfl⟩ := h
    obtain ⟨hannotated, htarget, hmissing⟩ := hd
    refine ⟨before, d, after, hsplit, ⟨(name, _),
      bound?_eq_some_iff.mpr ⟨hannotated, htarget, rfl⟩,
      bind_eq_error_iff.mpr ⟨hmissing, rfl⟩⟩, ?_⟩
    intro x hx m hm
    obtain ⟨hxannotated, hxtarget, -⟩ := bound?_eq_some_iff.mp hm
    cases hb : ConfigMapping.bind (s.context settings) m.1 m.2 with
    | ok added => exact ⟨added, rfl⟩
    | error e' =>
        exact absurd ⟨hxannotated, hxtarget, (bind_eq_error_iff.mp hb).1⟩ (hbefore x hx m.1)

/-! ### The pass

A pass has one error at most.  So where a point is misplaced it is enough that `FailsWith` gives
an error, since the error of the pass can be no other.
-/

private theorem analyze_of_not_isMisplaced (h : ∀ p ∈ s.injectionPoints, ¬ p.IsMisplaced settings) :
    ∃ found, (analyze settings s.source).2 = .ok found := by
  cases ha : (analyze settings s.source).2 with
  | ok found => exact ⟨found, rfl⟩
  | error e =>
      obtain ⟨before, p, after, hpoints, hp, -⟩ := analyze_eq_error_iff.mp ha
      exact absurd hp (h p (by simp [hpoints]))

private theorem run_of_failsWith (h : s.FailsWith settings e) :
    (s.context settings).run = .error e := by
  cases h with
  | target hpoints hp hbefore =>
      exact BindingContext.run_of_analysis_error
        (analyze_eq_error_iff.mpr ⟨_, _, _, hpoints, hp, hbefore, rfl⟩)
  | interface hpoints hdeclared hd hbefore =>
      obtain ⟨found, ha⟩ := analyze_of_not_isMisplaced hpoints
      exact BindingContext.run_of_mappings_error ha
        (generate_eq_error_iff.mpr ⟨_, _, _, _, hdeclared, hd, hbefore, rfl⟩)

private theorem failsWith_of_run (h : (s.context settings).run = .error e) :
    s.FailsWith settings e := by
  by_cases hpoints : ∃ p ∈ s.injectionPoints, p.IsMisplaced settings
  · -- a pass has one error, so it is the one that the first misplaced point gives
    obtain ⟨before, p, after, hsplit, hp, hbefore⟩ := exists_first hpoints
    have hfails : s.FailsWith settings (.unsupportedTarget p.target) :=
      .target hsplit hp hbefore
    rw [run_of_failsWith hfails] at h
    rwa [← Except.error.inj h]
  · have hnone : ∀ p ∈ s.injectionPoints, ¬ p.IsMisplaced settings := by simpa using hpoints
    obtain ⟨found, ha⟩ := analyze_of_not_isMisplaced hnone
    rcases hg : ConfigMapping.generate (s.context settings) with ⟨added, outcome⟩
    cases outcome with
    | ok done =>
        rw [BindingContext.run_of_ok ha hg] at h
        exact nomatch h
    | error e' =>
        have hfailed : (ConfigMapping.generate (s.context settings)).2 = .error e' := by rw [hg]
        rw [BindingContext.run_of_mappings_error ha hfailed] at h
        obtain ⟨before, d, after, name, hsplit, hd, hbefore, rfl⟩ :=
          generate_eq_error_iff.mp hfailed
        rw [← Except.error.inj h]
        exact .interface hnone hsplit hd hbefore

/-- A pass succeeds when no point `IsMisplaced` and no declaration `MapsMissing`. -/
theorem run_succeeds_iff :
    (∃ o, (s.context settings).run = .ok o) ↔
      (∀ p ∈ s.injectionPoints, ¬ p.IsMisplaced settings) ∧
        ∀ d ∈ s.declarations, ∀ name, ¬ s.MapsMissing settings d name := by
  refine ⟨?_, ?_⟩
  · intro h
    obtain ⟨o, hrun⟩ := h
    have hsound : ∀ e, ¬ s.FailsWith settings e := by
      intro e he
      rw [run_of_failsWith he] at hrun
      exact nomatch hrun
    have hpoints : ∀ p ∈ s.injectionPoints, ¬ p.IsMisplaced settings := by
      intro p hp hmisplaced
      obtain ⟨before, q, after, hsplit, hq, hbefore⟩ := exists_first ⟨p, hp, hmisplaced⟩
      exact hsound _ (.target hsplit hq hbefore)
    refine ⟨hpoints, ?_⟩
    intro d hd name hmissing
    obtain ⟨before, x, after, hsplit, ⟨n, hn⟩, hbefore⟩ :=
      exists_first (P := fun x => ∃ n, s.MapsMissing settings x n) ⟨d, hd, name, hmissing⟩
    exact hsound _ (.interface hpoints hsplit hn fun y hy n' hn' => hbefore y hy ⟨n', hn'⟩)
  · intro h
    obtain ⟨hpoints, hdeclared⟩ := h
    cases hrun : (s.context settings).run with
    | ok o => exact ⟨o, rfl⟩
    | error e =>
        cases failsWith_of_run hrun with
        | target hsplit hp => exact absurd hp (hpoints _ (by simp [hsplit]))
        | interface _ hsplit hd => exact absurd hd (hdeclared _ (by simp [hsplit]) _)

/--
**What a pass over a snapshot fails with.**  It fails when a point is misplaced or a
declaration maps a missing class, and then it has the error of the first misplaced point,
or when there is none that of the first such declaration.  Manifests are always made, so no
pass ends for want of an implementation.
-/
theorem run_eq_error_iff (s : Snapshot) (settings : Settings) :
    (∀ e, (s.context settings).run = .error e ↔ s.FailsWith settings e) ∧
      ((∃ e, (s.context settings).run = .error e) ↔
        (∃ p ∈ s.injectionPoints, p.IsMisplaced settings) ∨
          ∃ d ∈ s.declarations, ∃ name, s.MapsMissing settings d name) ∧
      ∀ interface reason,
        (s.context settings).run ≠ .error (.mappingGeneration interface reason) := by
  refine ⟨fun e => ⟨failsWith_of_run, run_of_failsWith⟩, ?_, ?_⟩
  · have hends : (∃ e, (s.context settings).run = .error e) ↔
        ¬ ∃ o, (s.context settings).run = .ok o := by
      cases (s.context settings).run <;> simp
    rw [hends, run_succeeds_iff, not_and_or]
    push Not
    rfl
  · intro interface reason h
    exact nomatch failsWith_of_run h

end Snapshot

end ConfigBinder
