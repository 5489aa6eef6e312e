/-
What the check of settings finds.

The settings are checked in turn, the names of types first, and the check ends at the first
one that does not fit.  Whether a setting `Fits` is told by its own value: a name must hold
something and no white space, the sentinel must hold something, and the log level must be a
level in letters of any case.  A value that does not fit has one `Fault`, so settings pass the
check when each of them fits, and else fail it with the fault of the first that does not.
-/
import ConfigBinder.Proofs.InTurn
import ConfigBinder.Proofs.Text.Blank
import ConfigBinder.Proofs.Text.Case
import ConfigBinder.Settings

namespace ConfigBinder

/-- A name that holds something, and no white space. -/
def IsUsableName (name : String) : Prop := name ≠ "" ∧ ∀ c ∈ name.toList, Text.isBlank c = false

/-- A log level in letters of any case. -/
def IsLevel (text : String) : Prop := ∃ level ∈ Settings.logLevels, Text.InSmallLetters text level

namespace Setting

/-! ### The settings one by one

Five of the settings are names of types and are treated alike; `isTypeName` tells them from the
other two, each of which has a check of its own.
-/

/-- The member that holds the setting in a document.  Faults name it so. -/
def member : Setting → String
  | propertyQualifier => "property_qualifier"
  | mappingAnnotation => "mapping_annotation"
  | unconfiguredValue => "unconfigured_value"
  | producerComponent => "producer_component"
  | beanCreator => "bean_creator"
  | mappingCreator => "mapping_creator"
  | logLevel => "log_level"

/-- What the setting is in a record of all. -/
def value (s : Settings) : Setting → String
  | propertyQualifier => s.propertyQualifier.text
  | mappingAnnotation => s.mappingAnnotation.text
  | unconfiguredValue => s.unconfiguredValue
  | producerComponent => s.producerComponent.text
  | beanCreator => s.beanCreator.text
  | mappingCreator => s.mappingCreator.text
  | logLevel => s.logLevel

/-- The order in which the settings are checked. -/
def checked : List Setting :=
  [propertyQualifier, mappingAnnotation, producerComponent, beanCreator, mappingCreator,
    unconfiguredValue, logLevel]

theorem mem_checked (x : Setting) : x ∈ checked := by cases x <;> decide

/-- Whether the setting is the name of a type. -/
def isTypeName : Setting → Bool
  | .unconfiguredValue | .logLevel => false
  | _ => true

/-- The value is one that the setting may have. -/
def Fits (v : String) : Setting → Prop
  | .unconfiguredValue => v ≠ ""
  | .logLevel => IsLevel v
  | _ => IsUsableName v

/-- What is wrong with a value that does not fit. -/
inductive Fault : Setting → String → SettingsError → Prop
  | blank {x : Setting} {v : String} (hx : x.isTypeName = true)
      (hv : ∀ c ∈ v.toList, Text.isBlank c = true) :
      Fault x v (.missingRequired x.member "A fully qualified type name is required")
  | spaced {x : Setting} {v : String} (hx : x.isTypeName = true)
      (hblank : ∃ c ∈ v.toList, Text.isBlank c = true)
      (hother : ∃ c ∈ v.toList, Text.isBlank c = false) :
      Fault x v (.invalidValue x.member v "qualified type name without whitespace")
  | sentinel : Fault .unconfiguredValue "" (.missingRequired "unconfigured_value"
      "The sentinel must differ from an empty default value")
  | level {v : String} (hv : ¬ IsLevel v) :
      Fault .logLevel v (.invalidValue "log_level" v "trace, debug, info, warn or error")

/-- The check of one setting. -/
def check (v : String) : Setting → Except SettingsError Unit
  | .unconfiguredValue =>
    if v = "" then
      .error (.missingRequired "unconfigured_value"
        "The sentinel must differ from an empty default value")
    else .ok ()
  | .logLevel =>
    if Settings.isLogLevel v then .ok ()
    else .error (.invalidValue "log_level" v "trace, debug, info, warn or error")
  | x => checkQualifiedName x.member v

variable {x : Setting} {v : String} {e : SettingsError}

theorem isLogLevel_iff : Settings.isLogLevel v = true ↔ IsLevel v := by
  have hplain : ∀ level ∈ Settings.logLevels, ∀ d ∈ level.toList, d.toNat < 128 ∧ d ≠ 'k' := by
    have hall : (Settings.logLevels.all fun level =>
        level.toList.all fun d => d.toNat < 128 && d != 'k') = true := by decide
    simpa using hall
  rw [Settings.isLogLevel, List.contains_iff_mem]
  refine ⟨?_, ?_⟩
  · intro h
    exact ⟨_, h, (Text.inSmallLetters_iff (hplain _ h)).mpr rfl⟩
  · intro h
    obtain ⟨level, hlevel, hsmall⟩ := h
    rw [(Text.inSmallLetters_iff (hplain level hlevel)).mp hsmall]
    exact hlevel

private theorem check_of_isTypeName (hx : x.isTypeName = true) :
    x.check v = checkQualifiedName x.member v := by
  cases x with
  | unconfiguredValue | logLevel => exact nomatch hx
  | _ => rfl

private theorem fits_iff_of_isTypeName (hx : x.isTypeName = true) : x.Fits v ↔ IsUsableName v := by
  cases x with
  | unconfiguredValue | logLevel => exact nomatch hx
  | _ => rfl

/-- A value that `Fits` passes the check. -/
theorem check_of_fits (h : x.Fits v) : x.check v = .ok () := by
  by_cases hx : x.isTypeName = true
  · obtain ⟨hne, hfree⟩ := (fits_iff_of_isTypeName hx).mp h
    obtain ⟨c, hc⟩ := List.exists_mem_of_ne_nil v.toList (by simpa using hne)
    have hall : Text.allBlank v = false := Text.allBlank_eq_false_iff.mpr ⟨c, hc, hfree c hc⟩
    have hany : ¬ v.toList.any Text.isBlank = true := by simpa using hfree
    rw [check_of_isTypeName hx, checkQualifiedName, if_neg (by simp [hall]), if_neg hany]
  · cases x with
    | unconfiguredValue => exact if_neg h
    | logLevel => exact if_pos (isLogLevel_iff.mpr h)
    | _ => exact absurd rfl hx

/-- A value with a `Fault` fails the check with it. -/
theorem check_of_fault (h : x.Fault v e) : x.check v = .error e := by
  cases h with
  | blank hx hv =>
      rw [check_of_isTypeName hx, checkQualifiedName, if_pos (Text.allBlank_iff.mpr hv)]
  | spaced hx hblank hother =>
      have hall : Text.allBlank v = false := Text.allBlank_eq_false_iff.mpr hother
      rw [check_of_isTypeName hx, checkQualifiedName, if_neg (by simp [hall]),
        if_pos (List.any_eq_true.mpr hblank)]
  | sentinel => rfl
  | level hv => exact if_neg fun h => hv (isLogLevel_iff.mp h)

/-- A value `Fits`, or it has a `Fault`. -/
theorem fits_or_fault (x : Setting) (v : String) : x.Fits v ∨ ∃ e, x.Fault v e := by
  by_cases hx : x.isTypeName = true
  · rw [fits_iff_of_isTypeName hx]
    by_cases hall : ∀ c ∈ v.toList, Text.isBlank c = true
    · exact Or.inr ⟨_, .blank hx hall⟩
    · obtain ⟨c, hc, hfree⟩ : ∃ c ∈ v.toList, Text.isBlank c = false := by simpa using hall
      by_cases hany : ∃ c ∈ v.toList, Text.isBlank c = true
      · exact Or.inr ⟨_, .spaced hx hany ⟨c, hc, hfree⟩⟩
      · refine Or.inl ⟨?_, by simpa using hany⟩
        rintro rfl
        exact nomatch hc
  · cases x with
    | unconfiguredValue =>
        by_cases hv : v = ""
        · subst hv
          exact Or.inr ⟨_, .sentinel⟩
        · exact Or.inl hv
    | logLevel =>
        by_cases hv : IsLevel v
        · exact Or.inl hv
        · exact Or.inr ⟨_, .level hv⟩
    | _ => exact absurd rfl hx

theorem check_eq_ok_iff : x.check v = .ok () ↔ x.Fits v := by
  refine ⟨?_, check_of_fits⟩
  intro h
  rcases fits_or_fault x v with hfits | ⟨e, hfault⟩
  · exact hfits
  · exact nomatch h.symm.trans (check_of_fault hfault)

theorem check_eq_error_iff : x.check v = .error e ↔ x.Fault v e := by
  refine ⟨?_, check_of_fault⟩
  intro h
  rcases fits_or_fault x v with hfits | ⟨e', hfault⟩
  · exact nomatch h.symm.trans (check_of_fits hfits)
  · obtain rfl : e = e' := Except.error.inj (h.symm.trans (check_of_fault hfault))
    exact hfault

end Setting

/-! ### All settings

The check is put as a row of checks made in turn, one for each setting, so what it comes to is
what `forM_eq_ok_iff` and `forM_eq_error_iff` say of any such row.
-/

namespace Settings

open Setting

variable {s : Settings} {e : SettingsError}

/-- The fault is that of the first setting of `checked` that does not fit. -/
def FirstFault (s : Settings) (e : SettingsError) : Prop :=
  ∃ before x after, checked = before ++ x :: after ∧ (∀ y ∈ before, y.Fits (y.value s)) ∧
    x.Fault (x.value s) e

theorem validate_eq_forM (s : Settings) :
    s.validate = checked.forM fun x => x.check (x.value s) := by
  have hsentinel : check s.unconfiguredValue .unconfiguredValue =
      if s.unconfiguredValue = "" then throw (.missingRequired "unconfigured_value"
        "The sentinel must differ from an empty default value") else pure () := rfl
  have hlevel : check s.logLevel .logLevel = if !isLogLevel s.logLevel then
      throw (.invalidValue "log_level" s.logLevel "trace, debug, info, warn or error")
      else pure () := by
    cases h : isLogLevel s.logLevel <;> simp [check, h] <;> rfl
  unfold validate checked
  simp only [List.forM, value, hsentinel, hlevel, bind_pure_unit]
  split
  · rfl
  · rfl

/-- **Settings pass the check just when each of them fits.** -/
theorem validate_eq_ok_iff : s.validate = .ok () ↔ ∀ x : Setting, x.Fits (x.value s) := by
  rw [validate_eq_forM, forM_eq_ok_iff]
  simp only [check_eq_ok_iff, mem_checked, forall_const]

/-- **Settings fail the check with the fault of the first that does not fit.** -/
theorem validate_eq_error_iff : s.validate = .error e ↔ s.FirstFault e := by
  rw [validate_eq_forM, forM_eq_error_iff]
  simp only [check_eq_ok_iff, check_eq_error_iff]
  rfl

theorem validated_eq_ok_iff {s' : Settings} :
    s.validated = .ok s' ↔ s' = s ∧ ∀ x : Setting, x.Fits (x.value s) := by
  rw [validated, ← validate_eq_ok_iff]
  cases s.validate with
  | ok _ => simp [Except.map, eq_comm]
  | error e => simp [Except.map]

theorem validated_eq_error_iff : s.validated = .error e ↔ s.FirstFault e := by
  rw [validated, ← validate_eq_error_iff]
  cases s.validate with
  | ok _ => simp [Except.map]
  | error e => simp [Except.map]

end Settings

end ConfigBinder
