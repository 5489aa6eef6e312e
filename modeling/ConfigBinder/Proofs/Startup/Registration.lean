/-
What replays leave registered.

A replay that finds a problem registers nothing.  One whose plan `Validates` goes through the
mappings of the plan in order and ends at the first whose interface has a blank name.  It
fails there, and what the plan `Reaches`, which is what comes before that mapping, stays
registered.

How a replay ends is decided by its plan alone, and what it registers comes to what was
there.  So what a run of replays has registered is what its plans bring, put together.
-/
import ConfigBinder.Proofs.Startup.Recorder

namespace ConfigBinder

namespace StartupPlan

/-- The values convert to every type of every property of the plan. -/
def Validates (plan : StartupPlan) (resolve : TypeResolver) (values : ConfigValues) : Prop :=
  plan.propertyTypes.validate resolve values = .ok ()

theorem validates_iff {plan : StartupPlan} {resolve : TypeResolver} {values : ConfigValues} :
    plan.Validates resolve values ↔ plan.propertyTypes.problems resolve values = [] := by
  unfold Validates
  obtain ⟨hnone, hok⟩ | ⟨hsome, herror⟩ := plan.propertyTypes.validate_cases resolve values
  · simp [hnone, hok]
  · simp [hsome, herror]

/-- The mapping is one of the plan, and stands before all of the plan that have a blank
interface. -/
def Reaches (plan : StartupPlan) (m : MappingBinding) : Prop :=
  m ∈ plan.mappings ∧ ∀ b ∈ plan.mappings, b.interface.isBlank = true → compare m b = .lt

/-- The first mapping of the plan that has a blank interface. -/
structure FirstBlank (plan : StartupPlan) (b : MappingBinding) : Prop where
  mem : b ∈ plan.mappings
  isBlank : b.interface.isBlank = true
  first : ∀ c ∈ plan.mappings, c.interface.isBlank = true → c = b ∨ compare b c = .lt

private theorem firstBlank_of_find? {plan : StartupPlan} {b : MappingBinding}
    (h : plan.mappings.members.find? (·.interface.isBlank) = some b) : plan.FirstBlank b := by
  obtain ⟨hblank, before, after, hsplit, hbefore⟩ := List.find?_eq_some_iff_append.mp h
  have hascending := plan.mappings.ascending
  rw [hsplit] at hascending
  have hafter := (List.pairwise_cons.mp (List.pairwise_append.mp hascending).2.1).1
  refine ⟨List.mem_of_find?_eq_some h, hblank, ?_⟩
  intro c hc hcblank
  have hmem : c ∈ before ++ b :: after := hsplit ▸ hc
  rcases List.mem_append.mp hmem with hmem | hmem
  · simpa [hcblank] using hbefore c hmem
  · rcases List.mem_cons.mp hmem with rfl | hmem
    · exact Or.inl rfl
    · exact Or.inr (hafter c hmem)

theorem FirstBlank.reaches_iff {plan : StartupPlan} {b m : MappingBinding}
    (hb : plan.FirstBlank b) : plan.Reaches m ↔ m ∈ plan.mappings ∧ compare m b = .lt := by
  refine and_congr_right fun _ => ⟨?_, ?_⟩
  · intro h
    exact h b hb.mem hb.isBlank
  · intro hlt c hc hblank
    rcases hb.first c hc hblank with rfl | hbc
    · exact hlt
    · exact Std.TransCmp.lt_trans hlt hbc

/-- Without a blank interface a plan `Reaches` all of its mappings. -/
theorem reaches_of_named {plan : StartupPlan} {m : MappingBinding}
    (h : ∀ b ∈ plan.mappings, b.interface.isBlank = false) (hm : m ∈ plan.mappings) :
    plan.Reaches m := by
  refine ⟨hm, ?_⟩
  intro b hb hblank
  rw [h b hb] at hblank
  exact Bool.noConfusion hblank

private theorem isBlank_of_reaches {plan : StartupPlan} {m : MappingBinding} (h : plan.Reaches m) :
    m.interface.isBlank = false := by
  by_contra hblank
  have hself : compare m m = .lt := h.2 m h.1 (by simpa using hblank)
  simp at hself

end StartupPlan

namespace Recorder

/-! ### One registration -/

private theorem registerAll_frame (mappings : List MappingBinding) :
    ∀ r : Recorder, (r.registerAll mappings).1.resolve = r.resolve ∧
      (r.registerAll mappings).1.values = r.values := by
  induction mappings with
  | nil => intro r; exact ⟨rfl, rfl⟩
  | cons m rest ih =>
      intro r
      rw [registerAll]
      by_cases hblank : m.interface.isBlank = true
      · rw [if_pos hblank]
        exact ⟨rfl, rfl⟩
      · rw [if_neg hblank]
        exact ih (r.add m)

/-- `registerAll` ends at the first blank interface, whatever was registered before. -/
theorem registerAll_outcome (mappings : List MappingBinding) :
    ∀ r : Recorder, (r.registerAll mappings).2 =
      match mappings.find? (·.interface.isBlank) with
      | none => .ok ()
      | some b => .error (.blankInterface b.keyPrefix) := by
  induction mappings with
  | nil => intro r; rfl
  | cons m rest ih =>
      intro r
      rw [registerAll, List.find?_cons]
      by_cases hblank : m.interface.isBlank = true
      · rw [if_pos hblank, hblank]
      · rw [if_neg hblank, eq_false_of_ne_true hblank]
        exact ih (r.add m)

/-- Of mappings in order those are registered that stand before all blank interfaces. -/
theorem mem_registered_registerAll {m : MappingBinding} (mappings : List MappingBinding) :
    ∀ r : Recorder, mappings.Pairwise (fun a b => compare a b = .lt) →
      (m ∈ (r.registerAll mappings).1.registered ↔ m ∈ r.registered ∨
        (m ∈ mappings ∧ ∀ b ∈ mappings, b.interface.isBlank = true → compare m b = .lt)) := by
  induction mappings with
  | nil => intro r _; simp [registerAll]
  | cons a rest ih =>
      intro r hascending
      obtain ⟨hhead, hrest⟩ := List.pairwise_cons.mp hascending
      rw [registerAll]
      by_cases hblank : a.interface.isBlank = true
      · -- nothing stands before the first, so nothing is registered
        rw [if_pos hblank]
        refine ⟨Or.inl, ?_⟩
        intro h
        rcases h with h | ⟨hmem, hbefore⟩
        · exact h
        · have hlt : compare m a = .lt := hbefore a List.mem_cons_self hblank
          rcases List.mem_cons.mp hmem with rfl | hmem
          · simp at hlt
          · rw [Std.OrientedCmp.gt_of_lt (hhead m hmem)] at hlt
            simp at hlt
      · rw [if_neg hblank, ih (r.add a) hrest]
        have hadd : m ∈ (r.add a).registered ↔ m = a ∨ m ∈ r.registered :=
          OrderedSet.mem_insert
        have hfirst : m = a → ∀ b ∈ rest, b.interface.isBlank = true → compare m b = .lt := by
          intro hm b hb _
          rw [hm]
          exact hhead b hb
        rw [hadd, List.mem_cons, List.forall_mem_cons]
        refine ⟨?_, ?_⟩
        · intro h
          rcases h with (hm | h) | ⟨hmem, hbefore⟩
          · exact Or.inr ⟨Or.inl hm, fun h => absurd h hblank, hfirst hm⟩
          · exact Or.inl h
          · exact Or.inr ⟨Or.inr hmem, fun h => absurd h hblank, hbefore⟩
        · intro h
          rcases h with h | ⟨hm | hmem, -, hbefore⟩
          · exact Or.inl (Or.inr h)
          · exact Or.inl (Or.inl hm)
          · exact Or.inr ⟨hmem, hbefore⟩

/-- Registration of a plan that names every interface succeeds, and else it fails for the one that
is `FirstBlank`. -/
theorem registerAll_cases (r : Recorder) (plan : StartupPlan) :
    ((∀ m ∈ plan.mappings, m.interface.isBlank = false) ∧
        (r.registerAll plan.mappings.members).2 = .ok ()) ∨
      ∃ b, plan.FirstBlank b ∧
        (r.registerAll plan.mappings.members).2 = .error (.blankInterface b.keyPrefix) := by
  rw [registerAll_outcome]
  cases hfind : plan.mappings.members.find? (·.interface.isBlank) with
  | none =>
      refine Or.inl ⟨?_, rfl⟩
      intro m hm
      simpa using List.find?_eq_none.mp hfind m hm
  | some b => exact Or.inr ⟨b, StartupPlan.firstBlank_of_find? hfind, rfl⟩

/-! ### One replay

A replay changes what is registered and nothing else of the recorder, so types and values are
the same for whatever is replayed behind it.
-/

variable {r : Recorder} {plan : StartupPlan}

private theorem replay_frame (r : Recorder) (plan : StartupPlan) :
    (r.replay plan).1.resolve = r.resolve ∧ (r.replay plan).1.values = r.values := by
  obtain ⟨-, hreplay⟩ | ⟨-, hreplay⟩ := replay_cases r plan
  · rw [hreplay]
    exact ⟨rfl, rfl⟩
  · rw [hreplay]
    exact registerAll_frame _ r

/-- `replay` keeps what is registered and adds what a plan that `Validates` also `Reaches`. -/
theorem mem_registered_replay (r : Recorder) (plan : StartupPlan) {m : MappingBinding} :
    m ∈ (r.replay plan).1.registered ↔
      m ∈ r.registered ∨ (plan.Validates r.resolve r.values ∧ plan.Reaches m) := by
  rw [StartupPlan.validates_iff]
  obtain ⟨hproblems, hreplay⟩ | ⟨hnone, hreplay⟩ := replay_cases r plan
  · rw [hreplay]
    simp [hproblems]
  · rw [hreplay, mem_registered_registerAll _ r plan.mappings.ascending]
    simp only [hnone, true_and]
    rfl

/-- A replay that finds problems changes nothing. -/
theorem replay_of_invalidProperties {problems : List PropertyProblem}
    (h : (r.replay plan).2 = .error (.invalidProperties problems)) : (r.replay plan).1 = r := by
  obtain ⟨-, hreplay⟩ | ⟨-, hreplay⟩ := replay_cases r plan
  · rw [hreplay]
  · rw [hreplay] at h
    exact absurd h (registerAll_ne_invalidProperties problems _ r)

/-- `replay` succeeds when the plan `Validates` and names every interface, whatever is
registered. -/
theorem replay_succeeds_iff : (r.replay plan).2 = .ok () ↔
    plan.Validates r.resolve r.values ∧ ∀ m ∈ plan.mappings, m.interface.isBlank = false := by
  rw [StartupPlan.validates_iff]
  obtain ⟨hproblems, hreplay⟩ | ⟨hnone, hreplay⟩ := replay_cases r plan
  · rw [hreplay]
    simp [hproblems]
  · rw [hreplay]
    obtain ⟨hnamed, hok⟩ | ⟨b, hb, herror⟩ := registerAll_cases r plan
    · exact iff_of_true hok ⟨hnone, hnamed⟩
    · rw [herror]
      refine iff_of_false (fun h => nomatch h) ?_
      intro h
      have hnamed : b.interface.isBlank = false := h.2 b hb.mem
      rw [hb.isBlank] at hnamed
      exact Bool.noConfusion hnamed

/-- A replay asks types and values for the problems of its plan and nothing else. -/
theorem replay_congr {s : Recorder} (hregistered : r.registered = s.registered)
    (hproblems : plan.propertyTypes.problems r.resolve r.values =
      plan.propertyTypes.problems s.resolve s.values) :
    (r.replay plan).1.registered = (s.replay plan).1.registered ∧
      (r.replay plan).2 = (s.replay plan).2 := by
  refine ⟨OrderedSet.ext_mem fun m => ?_, ?_⟩
  · rw [mem_registered_replay, mem_registered_replay, StartupPlan.validates_iff,
      StartupPlan.validates_iff, hregistered, hproblems]
  · obtain ⟨hr, hreplay⟩ | ⟨hr, hreplay⟩ := replay_cases r plan
    · obtain ⟨-, hreplay'⟩ | ⟨hs, -⟩ := replay_cases s plan
      · rw [hreplay, hreplay', hproblems]
      · exact absurd (hproblems.trans hs) hr
    · obtain ⟨hs, -⟩ | ⟨-, hreplay'⟩ := replay_cases s plan
      · exact absurd (hproblems.symm.trans hr) hs
      · rw [hreplay, hreplay', registerAll_outcome, registerAll_outcome]

private theorem ext_registered {r r' : Recorder} (hresolve : r.resolve = r'.resolve)
    (hvalues : r.values = r'.values) (h : ∀ m, m ∈ r.registered ↔ m ∈ r'.registered) :
    r = r' := by
  have hregistered : r.registered = r'.registered := OrderedSet.ext_mem h
  cases r
  cases r'
  rw [mk.injEq]
  exact ⟨hresolve, hvalues, hregistered⟩

/-- A replay that has succeeded succeeds again, and changes nothing. -/
theorem replay_again {recorder : Recorder} (h : r.replay plan = (recorder, .ok ())) :
    recorder.replay plan = (recorder, .ok ()) := by
  obtain rfl : (r.replay plan).1 = recorder := by rw [h]
  have hsucceeds : (r.replay plan).2 = .ok () := by rw [h]
  obtain ⟨hresolve, hvalues⟩ := replay_frame r plan
  obtain ⟨hresolve', hvalues'⟩ := replay_frame (r.replay plan).1 plan
  refine Prod.ext (ext_registered hresolve' hvalues' ?_) ?_
  · intro m
    rw [mem_registered_replay, mem_registered_replay r, hresolve, hvalues, or_assoc, or_self]
  · rw [replay_succeeds_iff, hresolve, hvalues]
    exact replay_succeeds_iff.mp hsucceeds

/--
**What a failed replay leaves.**  One that finds problems leaves the recorder as it was.
One that ends at a mapping with a blank interface, the first of its plan, has registered
just the mappings of the plan before that one, so it leaves what was registered unchanged
just when those were registered already.
-/
theorem registered_of_failed_replay (r : Recorder) (plan : StartupPlan) (e : StartupError)
    (h : (r.replay plan).2 = .error e) :
    ((∃ problems, e = .invalidProperties problems) ∧ (r.replay plan).1 = r) ∨
      ∃ b, plan.FirstBlank b ∧ e = .blankInterface b.keyPrefix ∧
        (∀ m, m ∈ (r.replay plan).1.registered ↔
          m ∈ r.registered ∨ (m ∈ plan.mappings ∧ compare m b = .lt)) ∧
        ((r.replay plan).1.registered = r.registered ↔
          ∀ m ∈ plan.mappings, compare m b = .lt → m ∈ r.registered) := by
  obtain ⟨-, hreplay⟩ | ⟨hnone, hreplay⟩ := replay_cases r plan
  · rw [hreplay] at h ⊢
    exact Or.inl ⟨⟨_, (Except.error.inj h).symm⟩, rfl⟩
  · refine Or.inr ?_
    have hmem : ∀ m, m ∈ (r.replay plan).1.registered ↔ m ∈ r.registered ∨ plan.Reaches m := by
      intro m
      rw [mem_registered_replay]
      exact or_congr_right (and_iff_right (StartupPlan.validates_iff.mpr hnone))
    rw [hreplay] at h
    obtain ⟨-, hok⟩ | ⟨b, hb, herror⟩ := registerAll_cases r plan
    · rw [hok] at h
      exact nomatch h
    · rw [herror] at h
      simp only [hb.reaches_iff] at hmem
      refine ⟨b, hb, (Except.error.inj h).symm, hmem, ?_, ?_⟩
      · intro hsame m hm hlt
        rw [← hsame]
        exact (hmem m).mpr (Or.inr ⟨hm, hlt⟩)
      · intro hall
        refine OrderedSet.ext_mem fun m => ?_
        rw [hmem m]
        exact or_iff_left_of_imp fun h => hall m h.1 h.2

/-- A plan that maps a server, and after it an interface named by a no-break space. -/
def unnamedClient : StartupPlan where
  propertyTypes := ∅
  mappings := ⟨[⟨⟨"app.Server"⟩, "server"⟩, ⟨⟨"\u00a0"⟩, "client"⟩], by decide⟩

/-- That plan fails for the sake of the client, and the server stays registered. -/
theorem failed_replay_leaves_trace :
    ((fresh (fun _ => none) fun _ => none).replay unnamedClient).2 =
        .error (.blankInterface "client") ∧
      ((fresh (fun _ => none) fun _ => none).replay unnamedClient).1.registered ≠
        (fresh (fun _ => none) fun _ => none).registered := by
  decide

/-- The plan `unnamedClient` behind an administration that was registered before. -/
theorem registered_of_unnamedClient :
    let admin : MappingBinding := ⟨⟨"app.Admin"⟩, "admin"⟩
    let r : Recorder := ⟨fun _ => none, fun _ => none, OrderedSet.ofList [admin]⟩
    (r.replay unnamedClient).2 = .error (.blankInterface "client") ∧
      (((∃ problems, StartupError.blankInterface "client" = .invalidProperties problems) ∧
          (r.replay unnamedClient).1 = r) ∨
        ∃ b, unnamedClient.FirstBlank b ∧
          StartupError.blankInterface "client" = .blankInterface b.keyPrefix ∧
          (∀ m, m ∈ (r.replay unnamedClient).1.registered ↔
            m ∈ r.registered ∨ (m ∈ unnamedClient.mappings ∧ compare m b = .lt)) ∧
          ((r.replay unnamedClient).1.registered = r.registered ↔
            ∀ m ∈ unnamedClient.mappings, compare m b = .lt → m ∈ r.registered)) :=
  ⟨by decide, registered_of_failed_replay _ _ _ (by decide)⟩

/-! ### Runs of replays -/

/-- The recorder after a row of replays, whatever each of them came to. -/
def after (r : Recorder) (plans : List StartupPlan) : Recorder :=
  plans.foldl (fun r plan => (r.replay plan).1) r

private theorem after_frame (plans : List StartupPlan) :
    ∀ r : Recorder, (r.after plans).resolve = r.resolve ∧ (r.after plans).values = r.values := by
  induction plans with
  | nil => intro r; exact ⟨rfl, rfl⟩
  | cons plan rest ih =>
      intro r
      obtain ⟨hresolve, hvalues⟩ := ih (r.replay plan).1
      obtain ⟨hresolve', hvalues'⟩ := replay_frame r plan
      exact ⟨hresolve.trans hresolve', hvalues.trans hvalues'⟩

/-- A run keeps what is registered and adds what a plan of it that `Validates` also `Reaches`. -/
theorem mem_registered_after {m : MappingBinding} (plans : List StartupPlan) :
    ∀ r : Recorder, m ∈ (r.after plans).registered ↔ m ∈ r.registered ∨
      ∃ plan ∈ plans, plan.Validates r.resolve r.values ∧ plan.Reaches m := by
  induction plans with
  | nil => intro r; simp [after]
  | cons plan rest ih =>
      intro r
      obtain ⟨hresolve, hvalues⟩ := replay_frame r plan
      show m ∈ ((r.replay plan).1.after rest).registered ↔ _
      rw [ih, mem_registered_replay, hresolve, hvalues, or_assoc, List.exists_mem_cons_iff]

/-- What holds of a run of replays from a fresh recorder. -/
structure RunHolds (resolve : TypeResolver) (values : ConfigValues) (plans : List StartupPlan) :
    Prop where
  /-- No mapping without an interface is registered. -/
  named : ∀ m ∈ ((fresh resolve values).after plans).registered, m.interface.isBlank = false
  /-- What was registered at any time of the run is registered at its end. -/
  kept : ∀ before later, plans = before ++ later →
    ∀ m ∈ ((fresh resolve values).after before).registered,
      m ∈ ((fresh resolve values).after plans).registered
  /-- A replay that succeeds registers its whole plan. -/
  complete : ∀ before plan later, plans = before ++ plan :: later →
    (((fresh resolve values).after before).replay plan).2 = .ok () →
      ∀ m ∈ plan.mappings, m ∈ ((fresh resolve values).after plans).registered
  /-- What is registered is of a plan whose properties were all found to be valid. -/
  sound : ∀ m ∈ ((fresh resolve values).after plans).registered,
    ∃ plan ∈ plans, plan.Validates resolve values ∧ m ∈ plan.mappings
  /-- What the run has registered, exactly. -/
  members : ∀ m, m ∈ ((fresh resolve values).after plans).registered ↔
    ∃ plan ∈ plans, plan.Validates resolve values ∧ plan.Reaches m
  /-- A plan that does not validate changes nothing. -/
  refused : ∀ plan problems,
    (((fresh resolve values).after plans).replay plan).2 = .error (.invalidProperties problems) →
      (((fresh resolve values).after plans).replay plan).1 = (fresh resolve values).after plans
  /-- A plan that has just succeeded succeeds again and changes nothing. -/
  again : ∀ plan recorder, ((fresh resolve values).after plans).replay plan = (recorder, .ok ()) →
    recorder.replay plan = (recorder, .ok ())

/--
**What a run of replays registers.**  Whatever each replay of a run came to, what the run
has registered is what those of its plans reach that validate; so all of it is named,
nothing of it is lost, and every plan that succeeded is there as a whole.
-/
theorem runHolds (resolve : TypeResolver) (values : ConfigValues) (plans : List StartupPlan) :
    RunHolds resolve values plans := by
  -- what any run has registered; all but the last two parts are read off this
  have hexact : ∀ (plans : List StartupPlan) (m : MappingBinding),
      m ∈ ((fresh resolve values).after plans).registered ↔
        ∃ plan ∈ plans, plan.Validates resolve values ∧ plan.Reaches m := by
    intro plans m
    rw [mem_registered_after]
    exact or_iff_right fun h => nomatch h
  refine ⟨?named, ?kept, ?complete, ?sound, hexact plans, ?refused, ?again⟩
  case named =>
    intro m hm
    obtain ⟨plan, -, -, hreaches⟩ := (hexact plans m).mp hm
    exact StartupPlan.isBlank_of_reaches hreaches
  case kept =>
    intro before later hplans m hm
    obtain ⟨plan, hplan, hreaches⟩ := (hexact before m).mp hm
    refine (hexact plans m).mpr ⟨plan, ?_, hreaches⟩
    rw [hplans]
    exact List.mem_append_left _ hplan
  case complete =>
    intro before plan later hplans hsucceeds m hm
    obtain ⟨hvalid, hnamed⟩ := replay_succeeds_iff.mp hsucceeds
    obtain ⟨hresolve, hvalues⟩ := after_frame before (fresh resolve values)
    rw [hresolve, hvalues] at hvalid
    exact (hexact plans m).mpr
      ⟨plan, by simp [hplans], hvalid, StartupPlan.reaches_of_named hnamed hm⟩
  case sound =>
    intro m hm
    obtain ⟨plan, hplan, hvalid, hreaches⟩ := (hexact plans m).mp hm
    exact ⟨plan, hplan, hvalid, hreaches.1⟩
  case refused =>
    intro plan problems h
    exact replay_of_invalidProperties h
  case again =>
    intro plan recorder h
    exact replay_again h

end Recorder

end ConfigBinder
