/-
Settings come to the same from the environment and from a document.

Each setting has a variable of the environment, its `envName`, and a member of the document,
and replaces its default when it is set there.  So an environment, and a record that has just
the members of the variables that are set (`given`), say the same settings, in whatever order
the members stand; and what is said is checked in one way.

A reader asks a record for each member by name.  `ofDocument?_of_record` says so for any
notation whose documents answer at once, and JSON objects and YAML mappings are two of them.
-/
import ConfigBinder.Proofs.Json.Members
import ConfigBinder.Proofs.Settings.Validation
import ConfigBinder.Schema.Text
import Mathlib

namespace ConfigBinder

/-- The members that correspond to the variables that are set. -/
def Settings.given (env? : String → Option String) : List (String × String) :=
  Setting.checked.filterMap fun x => (env? x.envName).map (x.member, ·)

/-- An object that has just these texts as members, in some order. -/
def Json.HoldsTexts (members : List (String × String)) (v : Json) : Prop :=
  ∃ listed : List (String × String), listed.Perm members ∧
    v = .object (listed.map fun e => (e.1, .text e.2))

/-- A scalar with the text, in any style. -/
def Yaml.Node.IsScalar (n : Node) (text : String) : Prop := ∃ p style, n = .scalar p style text

/-- A mapping that has just these texts as members, in some order. -/
def Yaml.Node.HoldsTexts (members : List (String × String)) (n : Node) : Prop :=
  ∃ p entries listed, listed.Perm members ∧ n = .mapping p entries ∧
    List.Forall₂ (fun e m => IsScalar e.1 m.1 ∧ IsScalar e.2 m.2) entries listed

/-! ### What the variables say -/

namespace Settings

variable {env? : String → Option String}

private theorem text_elim (name? : Option String) (fallback : QualifiedName) :
    (name?.elim fallback .mk).text = name?.getD fallback.text := by
  cases name? <;> rfl

/-- In `overridden` each setting is its variable where that is set, and else the default. -/
theorem value_overridden (x : Setting) :
    x.value (overridden env?) = (env? x.envName).getD (x.value default) := by
  cases x with
  | unconfiguredValue | logLevel => rfl
  | _ => exact text_elim _ _

/-- In what is `given`, a variable that is set is the one value of its member. -/
theorem valuesOf_given (x : Setting) :
    valuesOf x.member (given env?) = (env? x.envName).toList := by
  have hflat : ∀ l : List Setting,
      valuesOf x.member (l.filterMap fun y => (env? y.envName).map (y.member, ·)) =
        l.flatMap fun y => if y.member = x.member then (env? y.envName).toList else [] := by
    intro l
    induction l with
    | nil => rfl
    | cons y rest ih =>
        rw [List.flatMap_cons, ← ih]
        cases hy : env? y.envName with
        | none => simp [hy]
        | some v =>
            rw [List.filterMap_cons_some (by rw [hy]; rfl)]
            by_cases hname : y.member = x.member
            · rw [hname, valuesOf_cons_self, if_pos rfl]
              rfl
            · rw [valuesOf_cons_of_ne v hname, if_neg hname]
              rfl
  rw [given, hflat]
  cases x <;> simp [Setting.checked, Setting.member]

/-- No member is `given` twice. -/
theorem length_valuesOf_given (x : Setting) :
    (valuesOf x.member (given env?)).length ≤ 1 := by
  rw [valuesOf_given]
  cases env? x.envName <;> simp

/-! ### What a record says -/

private theorem member_mem_members (x : Setting) : x.member ∈ members := by cases x <;> decide

private theorem exists_member_of_mem :
    ∀ name ∈ members, ∃ x ∈ Setting.checked, x.member = name := by decide

section

variable {δ : Type} {m : Type → Type} [Monad m] [Document δ m] {α : Type}

/-- `orDefault` reads a member that stands at most once as what is said, and as the default when
nothing is. -/
theorem orDefault_head? {ds : List δ} {said? : Option String} {read : δ → m α} {fallback : α}
    (make : String → α)
    (h : List.Forall₂ (fun d v => (Document.text? d : m String) = pure v) ds said?.toList)
    (hread : ∀ d v, (Document.text? d : m String) = pure v → read d = pure (make v)) :
    Document.orDefault fallback read ds.head? = pure (said?.elim fallback make) := by
  cases said? with
  | none =>
      obtain rfl := List.forall₂_nil_right_iff.mp h
      rfl
  | some v =>
      obtain ⟨d, rest, hd, hrest, rfl⟩ := List.forall₂_cons_right_iff.mp h
      exact hread d v hd

private theorem valuesOf_forall₂ {β γ : Type} {R : β → γ → Prop} {bs : List (String × β)}
    {cs : List (String × γ)} (h : List.Forall₂ (fun b c => b.1 = c.1 ∧ R b.2 c.2) bs cs)
    (name : String) : List.Forall₂ R (valuesOf name bs) (valuesOf name cs) := by
  induction h with
  | nil => exact .nil
  | @cons b c bs cs hbc _ ih =>
      obtain ⟨hname, hR⟩ := hbc
      obtain ⟨k, b⟩ := b
      obtain ⟨k', c⟩ := c
      obtain rfl : k = k' := hname
      by_cases hk : k = name
      · subst hk
        rw [valuesOf_cons_self, valuesOf_cons_self]
        exact .cons hR ih
      · rwa [valuesOf_cons_of_ne b hk, valuesOf_cons_of_ne c hk]

section

variable {d : δ} {ms : List (String × δ)} {said : List (String × String)}
  (hms : List.Forall₂ (fun e v => e.1 = v.1 ∧ (Document.text? e.2 : m String) = pure v.2) ms said)
  (hsaid : said.Perm (given env?))

include hms hsaid

private theorem forall₂_valuesOf_member (x : Setting) :
    List.Forall₂ (fun d v => (Document.text? d : m String) = pure v) (valuesOf x.member ms)
      (env? x.envName).toList := by
  rw [← valuesOf_given, ← valuesOf_eq_of_perm hsaid (length_valuesOf_given x)]
  exact valuesOf_forall₂ hms x.member

/-- Each member is read as its variable where that is set, and else as the default. -/
private theorem orDefault_member {read : δ → m α} {fallback : α} (make : String → α)
    (x : Setting)
    (hread : ∀ d v, (Document.text? d : m String) = pure v → read d = pure (make v)) :
    Document.orDefault fallback read ((known members ms).lookup x.member) =
      pure ((env? x.envName).elim fallback make) := by
  rw [lookup_known, if_pos (member_mem_members x)]
  exact orDefault_head? make (forall₂_valuesOf_member hms hsaid x) hread

variable [LawfulMonad m] [MonadLiftT Option m] [LawfulMonadLiftT Option m]

/-- No member stands twice, so the record answers for each of them. -/
private theorem fields?_of_record
    (hrecord : (Document.record? d : m (Record δ)) = pure (.named ms)) :
    (Document.fields? members d : m (String → Option δ)) =
      pure fun name => (known members ms).lookup name := by
  have honce : ∀ name ∈ members, (valuesOf name ms).length ≤ 1 := by
    intro name hname
    obtain ⟨x, -, rfl⟩ := exists_member_of_mem name hname
    rw [(forall₂_valuesOf_member hms hsaid x).length_eq]
    cases env? x.envName <;> simp
  rw [Document.fields?, hrecord, pure_bind, Record.fields?_named honce]
  exact liftM_pure _

/-- A record whose members say what the variables do is read as the defaults with those replaced
whose variables are set. -/
theorem ofDocument?_of_record
    (hrecord : (Document.record? d : m (Record δ)) = pure (.named ms)) :
    (ofDocument? d : m Settings) = pure (overridden env?) := by
  have hname : ∀ (x : Setting) (fallback : QualifiedName),
      Document.orDefault fallback (QualifiedName.ofDocument? (m := m))
        ((known members ms).lookup x.member) = pure ((env? x.envName).elim fallback .mk) := by
    intro x fallback
    refine orDefault_member hms hsaid QualifiedName.mk x fun d v hd => ?_
    rw [QualifiedName.ofDocument?, hd, map_pure]
  have htext : ∀ (x : Setting) (fallback : String),
      Document.orDefault fallback (Document.text? (m := m))
        ((known members ms).lookup x.member) = pure ((env? x.envName).getD fallback) := by
    intro x fallback
    rw [orDefault_member hms hsaid id x fun d v hd => hd]
    cases env? x.envName <;> rfl
  have h₁ := hname Setting.propertyQualifier default.propertyQualifier
  have h₂ := hname Setting.mappingAnnotation default.mappingAnnotation
  have h₃ := htext Setting.unconfiguredValue default.unconfiguredValue
  have h₄ := hname Setting.producerComponent default.producerComponent
  have h₅ := hname Setting.beanCreator default.beanCreator
  have h₆ := hname Setting.mappingCreator default.mappingCreator
  have h₇ := htext Setting.logLevel default.logLevel
  unfold ofDocument?
  simp only [Setting.member] at h₁ h₂ h₃ h₄ h₅ h₆ h₇
  simp only [fields?_of_record hms hsaid hrecord, pure_bind, h₁, h₂, h₃, h₄, h₅, h₆, h₇]
  rfl

end

end

/-! ### Objects and mappings

A document in JSON answers in `Option`, and one in YAML in `Following`, which counts the aliases
that may still be followed.  In a mapping of scalars there are none, so it answers at once as
well.
-/

/-- A JSON object that `HoldsTexts` is such a record. -/
theorem ofDocument?_of_json {v : Json} (h : v.HoldsTexts (given env?)) :
    ofDocument? v.view = some (overridden env?) := by
  obtain ⟨listed, hperm, rfl⟩ := h
  have hrecord : Document.record? (Json.view (.object (listed.map fun e => (e.1, .text e.2)))) =
      some (.named (listed.map fun e => (e.1, (⟨.text e.2, 126⟩ : Json.View)))) := by
    show some (Record.named ((listed.map fun e => (e.1, Json.text e.2)).map _)) = _
    rw [List.map_map]
    rfl
  refine ofDocument?_of_record ?_ hperm hrecord
  rw [List.forall₂_map_left_iff, List.forall₂_same]
  exact fun e _ => ⟨rfl, rfl⟩

/-- The entries of a mapping of scalars are read as their texts say. -/
theorem exists_entries {entries : List (Yaml.Node × Yaml.Node)} {listed : List (String × String)}
    (h : List.Forall₂ (fun e m => e.1.IsScalar m.1 ∧ e.2.IsScalar m.2) entries listed)
    (v : Yaml.View) (levels : Nat) : ∃ ms : List (String × Yaml.View),
      entries.mapM (fun e => return (← (v.inside levels e.1).text?, v.inside levels e.2)) =
          (pure ms : Yaml.Following _) ∧
        List.Forall₂ (fun e m => e.1 = m.1 ∧ e.2.text? = pure m.2) ms listed := by
  induction h with
  | nil => exact ⟨[], rfl, .nil⟩
  | @cons e m entries listed hem _ ih =>
      obtain ⟨key, w⟩ := e
      obtain ⟨name, text⟩ := m
      obtain ⟨⟨p, style, rfl⟩, ⟨p', style', rfl⟩⟩ := hem
      obtain ⟨ms, hms, hlisted⟩ := ih
      refine ⟨(name, v.inside levels (.scalar p' style' text)) :: ms, ?_, .cons ⟨rfl, rfl⟩ hlisted⟩
      rw [List.mapM_cons, hms]
      rfl

/-- So is a YAML mapping that `HoldsTexts`. -/
theorem answer?_of_yaml {n : Yaml.Node} (h : n.HoldsTexts (given env?)) (anchors : Yaml.Anchors) :
    (⟨some n, anchors, Yaml.maxLevels⟩ : Yaml.View).answer? ofDocument? =
      some (overridden env?) := by
  obtain ⟨p, entries, listed, hperm, rfl, hentries⟩ := h
  obtain ⟨ms, hms, hlisted⟩ :=
    exists_entries hentries ⟨some (.mapping p entries), anchors, Yaml.maxLevels⟩ 127
  have hrecord : Document.record?
      (⟨some (.mapping p entries), anchors, Yaml.maxLevels⟩ : Yaml.View) =
        (pure (.named ms) : Yaml.Following _) := by
    show (Record.named <$> _ : Yaml.Following _) = _
    exact (congrArg (Record.named <$> ·) hms).trans (map_pure _ _)
  rw [Yaml.View.answer?, ofDocument?_of_record hlisted hperm hrecord]
  rfl

private theorem levels_of_view? {text : String} {v : Yaml.View} (h : Yaml.view? text = some v) :
    v.levels = Yaml.maxLevels := by
  unfold Yaml.view? at h
  obtain ⟨tokens, -, h⟩ := Option.bind_eq_some_iff.mp h
  obtain ⟨node, -, h⟩ := Option.bind_eq_some_iff.mp h
  rw [← Option.some.inj h]

/-- The settings of a text are those of its document. -/
theorem ofYaml_of_document {text : String} {n : Yaml.Node}
    (htext : (Yaml.view? text).bind (·.node) = some n) (h : n.HoldsTexts (given env?)) :
    ofYaml text = (overridden env?).validated := by
  obtain ⟨v, hview, hnode⟩ := Option.bind_eq_some_iff.mp htext
  have hlevels := levels_of_view? hview
  obtain ⟨_, anchors, _⟩ := v
  subst hnode hlevels
  have hread : (Yaml.view? text).bind (·.answer? ofDocument?) = some (overridden env?) := by
    rw [hview]
    exact answer?_of_yaml h anchors
  rw [ofYaml, hread]

/--
**Environment and document configure alike.**  For every environment there are the settings
that are its variables where they are set, and else the defaults.  The environment gives
them, once checked.  Any JSON object that has just the members of the variables that are set is
read as them, and any text whose YAML document is a mapping with just these members gives what
the environment gives.  They pass the check when each setting fits, and else fail it with the
fault of the first that does not.
-/
theorem sources_agree (env? : String → Option String) : ∃ s : Settings,
    (∀ x : Setting, x.value s = (env? x.envName).getD (x.value default)) ∧
      ofEnvironment env? = s.validated ∧
      (∀ v : Json, v.HoldsTexts (given env?) → ofDocument? v.view = some s) ∧
      (∀ text n, (Yaml.view? text).bind (·.node) = some n → n.HoldsTexts (given env?) →
        ofYaml text = s.validated) ∧
      (∀ s', s.validated = .ok s' ↔ s' = s ∧ ∀ x : Setting, x.Fits (x.value s)) ∧
      ∀ e, s.validated = .error e ↔ s.FirstFault e :=
  ⟨overridden env?, value_overridden, rfl, fun _ h => ofDocument?_of_json h,
    fun _ _ htext h => ofYaml_of_document htext h, fun _ => validated_eq_ok_iff,
    fun _ => validated_eq_error_iff⟩

/-- An environment with two of the variables set. -/
def twoSet (name : String) : Option String :=
  if name = Setting.envName .propertyQualifier then some "org.acme.Value"
  else if name = Setting.envName .logLevel then some "Debug"
  else none

/-- The object for `twoSet`, its members in another order. -/
def twoMembers : Json :=
  .object [("log_level", .text "Debug"), ("property_qualifier", .text "org.acme.Value")]

/-- The YAML text for `twoSet`. -/
def twoLines : String := "log_level: 'Debug'\nproperty_qualifier: org.acme.Value\n"

theorem sources_agree_twoSet : ∃ s : Settings, s.logLevel = "Debug" ∧
    ofEnvironment twoSet = .ok s ∧ ofDocument? twoMembers.view = some s ∧
      ofYaml twoLines = .ok s := by
  obtain ⟨s, hvalue, henv, hjson, hyaml, hok, -⟩ := sources_agree twoSet
  have hgiven : given twoSet =
      [("property_qualifier", "org.acme.Value"), ("log_level", "Debug")] := by decide
  have hfits : ∀ x : Setting, x.Fits (x.value s) := by
    intro x
    rw [← Setting.check_eq_ok_iff, hvalue]
    cases x <;> decide
  have hvalidated : s.validated = .ok s := (hok s).mpr ⟨rfl, hfits⟩
  have hmembers : twoMembers.HoldsTexts (given twoSet) := by
    rw [hgiven]
    exact ⟨_, List.Perm.swap _ _ _, rfl⟩
  have hlines : (Yaml.view? twoLines).bind (·.node) = some (.mapping ⟨none, none⟩
      [(.scalar ⟨none, none⟩ .plain "log_level", .scalar ⟨none, none⟩ .singleQuoted "Debug"),
        (.scalar ⟨none, none⟩ .plain "property_qualifier",
          .scalar ⟨none, none⟩ .plain "org.acme.Value")]) := by cbv
  refine ⟨s, hvalue .logLevel, henv.trans hvalidated, hjson _ hmembers,
    (hyaml _ _ hlines ?_).trans hvalidated⟩
  rw [hgiven]
  exact ⟨_, _, _, List.Perm.swap _ _ _, rfl,
    .cons ⟨⟨_, _, rfl⟩, _, _, rfl⟩ (.cons ⟨⟨_, _, rfl⟩, _, _, rfl⟩ .nil)⟩

end Settings

end ConfigBinder
