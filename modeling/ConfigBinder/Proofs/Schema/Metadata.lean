/-
A snapshot is read back as it was written, and then checked.

Each part of a snapshot is a record or a record that says its kind.  For each of them `finds`
says that it is found in whatever carries it, wherever its members stand, and `carries_self`
that what is written carries itself.  What a place may leave empty is written as nothing at all,
and what has a default is written all the same, but the reader does with the default where it is
left out.

The reader finds in the text the very snapshot that was written, and checks that one.  So a
sound snapshot comes back, an unsound one is refused for its own first fault, and neither is
ever taken for malformed.
-/
import ConfigBinder.Proofs.Metadata.Snapshot
import ConfigBinder.Proofs.Ordered
import ConfigBinder.Proofs.Schema.Type
import ConfigBinder.Schema.Text

namespace ConfigBinder

open Document Json

/-! ### Annotations and what carries them -/

namespace Annotation

@[simp] theorem isPrintable_toJson (a : Annotation) : a.toJson.IsPrintable := by
  have hvalues : (Json.object (a.values.entries.map fun e => (e.1, .text e.2))).IsPrintable :=
    isPrintable_map Json.text fun e _ => isPrintable_text e.2
  refine isPrintable_object.mpr ?_
  simp only [List.forall_mem_cons, List.not_mem_nil, false_imp_iff, implies_true, and_true]
  exact ⟨a.name.isPrintable_toJson, hvalues⟩

/-- Attributes are read back with their values. -/
theorem reads_values (values : OrderedMap String String) :
    Reads valuesOfDocument? (.object (values.entries.map fun e => (e.1, .text e.2))) values := by
  have hentries := (reads_map Json.text fun e (_ : e ∈ values.entries) => reads_text e.2).map
    OrderedMap.ofList
  rw [OrderedMap.ofList_entries] at hentries
  exact hentries

theorem finds (a : Annotation) : Finds ofDocument? (.record .attached) a.toJson a := by
  refine finds_record rfl ?_
  intro levels get hgot
  simp only [Form.row, Form.rows, Rows.row, List.forall_mem_cons] at hgot
  obtain ⟨hname, hvalues, -⟩ := hgot
  have hname := hname.required rfl a.name.reads.finds
  have hvalues := hvalues.orDefault rfl (reads_values a.values).finds (reads_values ∅)
  simp only [hname, hvalues]
  rfl

theorem carries_self (a : Annotation) : Carries (.record .attached) a.toJson a.toJson :=
  carries_self_record (.cons ⟨rfl, .value _⟩ (.cons ⟨rfl, .value _⟩ .nil)) fun h => nomatch h

end Annotation

namespace InjectionTarget

/-- The kind that a target is written with. -/
def kindName : InjectionTarget → String
  | .field _ _ => "field"
  | .parameter _ _ _ _ => "parameter"
  | .method _ _ => "method"
  | .onClass _ => "class"

/-- The members that a target is written with behind its kind. -/
def others : InjectionTarget → List (String × Json)
  | .field c n => [("declaring_class", c.toJson), ("name", .text n)]
  | .parameter c m p n =>
    [("declaring_class", c.toJson), ("method", .text m), ("position", .nat p.toNat),
      ("name", .text n)]
  | .method c n => [("declaring_class", c.toJson), ("name", .text n)]
  | .onClass n => [("name", n.toJson)]

theorem toJson_eq (t : InjectionTarget) : t.toJson = kindedObject t.kindName t.others := by
  cases t <;> rfl

@[simp] theorem isPrintable_toJson (t : InjectionTarget) : t.toJson.IsPrintable := by
  cases t with
  | field c n | method c n | onClass n => simp [toJson]
  | parameter c m p n => simp [toJson, isPrintable_nat p.toNat_lt]

/-- `positionOfDatum?` reads a position back from its number, up to the largest. -/
theorem positionOfDatum?_natural (p : UInt64) :
    positionOfDatum? (.natural p.toNat) = some p := by
  show (if p.toNat < UInt64.size then some (UInt64.ofNat p.toNat) else none) = some p
  rw [if_pos p.toNat_lt, UInt64.ofNat_toNat]

theorem kind_not_mem_others (t : InjectionTarget) : "kind" ∉ t.others.map (·.1) := by
  cases t with
  | field c n | parameter c m p n | method c n | onClass n => simp [others]

theorem ofKinded?_kindedData (t : InjectionTarget) :
    ofKinded? (kindedData t.kindName t.others) = some t := by
  cases t with
  | field c n | method c n | onClass n => rfl
  | parameter c m p n =>
      show (positionOfDatum? (.natural p.toNat)).bind
        (fun p => some (InjectionTarget.parameter c m p n)) = _
      rw [positionOfDatum?_natural]
      rfl

/-- A target is made of the members that its kind asks for, and of nothing else. -/
theorem ofKinded?_congr (t : InjectionTarget) {k : Kinded} (hkind : k.kind = .name t.kindName)
    (hfields : k.rest.fields? (t.others.map (·.1)) =
      (kindedData t.kindName t.others).rest.fields? (t.others.map (·.1))) :
    ofKinded? k = some t := by
  refine Eq.trans ?_ t.ofKinded?_kindedData
  cases t with
  | field c n | parameter c m p n | method c n | onClass n =>
      rw [ofKinded?, ofKinded?, hkind]
      exact congrArg (Option.bind · _) hfields

theorem row_eq (t : InjectionTarget) :
    Form.injectionTarget.row (("kind", .text t.kindName) :: t.others) =
      .kind :: (t.others.map (·.1)).map fun name => ⟨name, .value, none⟩ := by
  cases t with
  | field c n | parameter c m p n | method c n | onClass n => rfl

theorem finds (t : InjectionTarget) :
    Finds ofDocument? (.record .injectionTarget) t.toJson t := by
  rw [toJson_eq]
  exact finds_values rfl t.kind_not_mem_others t.row_eq fun k => t.ofKinded?_congr

theorem carries_self (t : InjectionTarget) :
    Carries (.record .injectionTarget) t.toJson t.toJson := by
  have hprint := t.isPrintable_toJson
  rw [toJson_eq] at hprint ⊢
  exact carries_self_values t.row_eq hprint

end InjectionTarget

namespace InjectionPoint

@[simp] theorem isPrintable_toJson (p : InjectionPoint) : p.toJson.IsPrintable := by
  simp [toJson]

theorem finds (p : InjectionPoint) :
    Finds ofDocument? (.record .injectionPoint) p.toJson p := by
  refine finds_record rfl ?_
  intro levels get hgot
  simp only [Form.row, Form.rows, Rows.row, List.forall_mem_cons] at hgot
  obtain ⟨htarget, htype, hqualifiers, hdefaulted, -⟩ := hgot
  have htarget := htarget.required rfl p.target.finds
  have htype := htype.required rfl p.requiredType.finds
  have hqualifiers := hqualifiers.orDefault rfl
    (finds_list fun q (_ : q ∈ p.qualifiers) => q.finds) (reads_nil _)
  have hdefaulted := hdefaulted.orDefault rfl (reads_flag p.defaulted).finds (reads_flag false)
  simp only [htarget, htype, hqualifiers, hdefaulted]
  rfl

theorem carries_self (p : InjectionPoint) :
    Carries (.record .injectionPoint) p.toJson p.toJson := by
  have hqualifiers := carries_self_list fun q (_ : q ∈ p.qualifiers) => q.carries_self
  exact carries_self_record (.cons ⟨rfl, p.target.carries_self⟩
    (.cons ⟨rfl, p.requiredType.carries_self⟩ (.cons ⟨rfl, hqualifiers⟩
      (.cons ⟨rfl, .value _⟩ .nil)))) fun h => nomatch h

end InjectionPoint

namespace DeclarationTarget

/-- The kind that a target is written with. -/
def kindName : DeclarationTarget → String
  | .onClass _ => "class"
  | .field _ _ => "field"
  | .method _ _ => "method"

/-- The members that a target is written with behind its kind. -/
def others : DeclarationTarget → List (String × Json)
  | .onClass n => [("name", n.toJson)]
  | .field c n | .method c n => [("declaring_class", c.toJson), ("name", .text n)]

theorem toJson_eq (t : DeclarationTarget) : t.toJson = kindedObject t.kindName t.others := by
  cases t <;> rfl

@[simp] theorem isPrintable_toJson (t : DeclarationTarget) : t.toJson.IsPrintable := by
  cases t with
  | onClass n | field c n | method c n => simp [toJson]

theorem kind_not_mem_others (t : DeclarationTarget) : "kind" ∉ t.others.map (·.1) := by
  cases t with
  | onClass n | field c n | method c n => simp [others]

theorem ofKinded?_kindedData (t : DeclarationTarget) :
    ofKinded? (kindedData t.kindName t.others) = some t := by
  cases t with
  | onClass n | field c n | method c n => rfl

/-- A target is made of the members that its kind asks for, and of nothing else. -/
theorem ofKinded?_congr (t : DeclarationTarget) {k : Kinded} (hkind : k.kind = .name t.kindName)
    (hfields : k.rest.fields? (t.others.map (·.1)) =
      (kindedData t.kindName t.others).rest.fields? (t.others.map (·.1))) :
    ofKinded? k = some t := by
  refine Eq.trans ?_ t.ofKinded?_kindedData
  cases t with
  | onClass n | field c n | method c n =>
      rw [ofKinded?, ofKinded?, hkind]
      exact congrArg (Option.bind · _) hfields

theorem row_eq (t : DeclarationTarget) :
    Form.declarationTarget.row (("kind", .text t.kindName) :: t.others) =
      .kind :: (t.others.map (·.1)).map fun name => ⟨name, .value, none⟩ := by
  cases t with
  | onClass n | field c n | method c n => rfl

theorem finds (t : DeclarationTarget) :
    Finds ofDocument? (.record .declarationTarget) t.toJson t := by
  rw [toJson_eq]
  exact finds_values rfl t.kind_not_mem_others t.row_eq fun k => t.ofKinded?_congr

theorem carries_self (t : DeclarationTarget) :
    Carries (.record .declarationTarget) t.toJson t.toJson := by
  have hprint := t.isPrintable_toJson
  rw [toJson_eq] at hprint ⊢
  exact carries_self_values t.row_eq hprint

end DeclarationTarget

namespace Declaration

@[simp] theorem isPrintable_toJson (d : Declaration) : d.toJson.IsPrintable := by simp [toJson]

theorem finds (d : Declaration) : Finds ofDocument? (.record .declaration) d.toJson d := by
  refine finds_record rfl ?_
  intro levels get hgot
  simp only [Form.row, Form.rows, Rows.row, List.forall_mem_cons] at hgot
  obtain ⟨hattached, htarget, -⟩ := hgot
  have hattached := hattached.required rfl d.attached.finds
  have htarget := htarget.required rfl d.target.finds
  simp only [hattached, htarget]
  rfl

theorem carries_self (d : Declaration) : Carries (.record .declaration) d.toJson d.toJson :=
  carries_self_record (.cons ⟨rfl, d.attached.carries_self⟩
    (.cons ⟨rfl, d.target.carries_self⟩ .nil)) fun h => nomatch h

end Declaration

/-! ### Classes and roots -/

namespace Method

@[simp] theorem isPrintable_toJson (m : Method) : m.toJson.IsPrintable := by simp [toJson]

theorem finds (m : Method) : Finds ofDocument? (.record .method) m.toJson m := by
  refine finds_record rfl ?_
  intro levels get hgot
  simp only [Form.row, Form.rows, Rows.row, List.forall_mem_cons] at hgot
  obtain ⟨hname, htype, -⟩ := hgot
  have hname := hname.required rfl (reads_text m.name).finds
  have htype := htype.required rfl m.returnType.finds
  simp only [hname, htype]
  rfl

theorem carries_self (m : Method) : Carries (.record .method) m.toJson m.toJson :=
  carries_self_record (.cons ⟨rfl, .value _⟩ (.cons ⟨rfl, m.returnType.carries_self⟩ .nil))
    fun h => nomatch h

end Method

namespace ClassEntry

@[simp] theorem isPrintable_toJson (c : ClassEntry) : c.toJson.IsPrintable := by
  have henclosing : ((c.enclosing.map QualifiedName.toJson).getD .null).IsPrintable := by
    cases c.enclosing with
    | none => exact isPrintable_null
    | some n => exact n.isPrintable_toJson
  simp [toJson, henclosing]

/-- A class nested in none is written as nested in nothing. -/
theorem reads_enclosing (c : ClassEntry) : Reads (option? QualifiedName.ofDocument?)
    ((c.enclosing.map QualifiedName.toJson).getD .null) c.enclosing :=
  reads_option (fun n _ => by simp [QualifiedName.toJson]) fun n _ => n.reads

/-- The reader `Finds` a class, also one that leaves out that it is nested in none. -/
theorem finds (c : ClassEntry) : Finds ofDocument? (.record .classEntry) c.toJson c := by
  refine finds_record rfl ?_
  intro levels get hgot
  simp only [Form.row, Form.rows, Rows.row, List.forall_mem_cons] at hgot
  obtain ⟨hname, henclosing, hinterface, hmethods, -⟩ := hgot
  have hname := hname.required rfl c.name.reads.finds
  have henclosing := henclosing.orDefault rfl c.reads_enclosing.finds reads_none
  have hinterface := hinterface.orDefault rfl (reads_flag c.isInterface).finds (reads_flag false)
  have hmethods := hmethods.orDefault rfl
    (finds_list fun m (_ : m ∈ c.methods) => m.finds) (reads_nil _)
  simp only [hname, henclosing, hinterface, hmethods]
  rfl

theorem carries_self (c : ClassEntry) : Carries (.record .classEntry) c.toJson c.toJson := by
  have hmethods := carries_self_list fun m (_ : m ∈ c.methods) => m.carries_self
  exact carries_self_record (.cons ⟨rfl, .value _⟩ (.cons ⟨rfl, .value _⟩
    (.cons ⟨rfl, .value _⟩ (.cons ⟨rfl, hmethods⟩ .nil)))) fun h => nomatch h

end ClassEntry

namespace ConfigRoot

@[simp] theorem isPrintable_toJson (r : ConfigRoot) : r.toJson.IsPrintable := by
  simp [toJson, ConfigPhase.toJson]

theorem reads_phase (p : ConfigPhase) : Reads ConfigPhase.ofDocument? p.toJson p := by
  intro levels _
  cases p <;> rfl

theorem finds (r : ConfigRoot) : Finds ofDocument? (.record .configRoot) r.toJson r := by
  refine finds_record rfl ?_
  intro levels get hgot
  simp only [Form.row, Form.rows, Rows.row, List.forall_mem_cons] at hgot
  obtain ⟨hclass, hphase, -⟩ := hgot
  have hclass := hclass.required rfl r.rootClass.reads.finds
  have hphase := hphase.required rfl (reads_phase r.phase).finds
  simp only [hclass, hphase]
  rfl

theorem carries_self (r : ConfigRoot) : Carries (.record .configRoot) r.toJson r.toJson :=
  carries_self_record (.cons ⟨rfl, .value _⟩ (.cons ⟨rfl, .value _⟩ .nil)) fun h => nomatch h

end ConfigRoot

/-! ### The whole snapshot -/

namespace Snapshot

theorem isPrintable_toJson (s : Snapshot) : s.toJson.IsPrintable := by simp [toJson]

theorem finds (s : Snapshot) : Finds ofDocument? (.record .snapshot) s.toJson s := by
  refine finds_record rfl ?_
  intro levels get hgot
  simp only [Form.row, Form.rows, Rows.row, List.forall_mem_cons] at hgot
  obtain ⟨hclasses, hpoints, hdeclarations, hroots, -⟩ := hgot
  have hclasses := hclasses.orDefault rfl
    (finds_list fun c (_ : c ∈ s.classes) => c.finds) (reads_nil _)
  have hpoints := hpoints.orDefault rfl
    (finds_list fun p (_ : p ∈ s.injectionPoints) => p.finds) (reads_nil _)
  have hdeclarations := hdeclarations.orDefault rfl
    (finds_list fun d (_ : d ∈ s.declarations) => d.finds) (reads_nil _)
  have hroots := hroots.orDefault rfl
    (finds_list fun r (_ : r ∈ s.configRoots) => r.finds) (reads_nil _)
  simp only [hclasses, hpoints, hdeclarations, hroots]
  rfl

theorem carries_self (s : Snapshot) : Carries (.record .snapshot) s.toJson s.toJson := by
  have hclasses := carries_self_list fun c (_ : c ∈ s.classes) => c.carries_self
  have hpoints := carries_self_list fun p (_ : p ∈ s.injectionPoints) => p.carries_self
  have hdeclarations := carries_self_list fun d (_ : d ∈ s.declarations) => d.carries_self
  have hroots := carries_self_list fun r (_ : r ∈ s.configRoots) => r.carries_self
  exact carries_self_record (.cons ⟨rfl, hclasses⟩ (.cons ⟨rfl, hpoints⟩
    (.cons ⟨rfl, hdeclarations⟩ (.cons ⟨rfl, hroots⟩ .nil)))) fun h => nomatch h

/-- A document that `Carries` what was written holds the snapshot, and the snapshot is checked by
`validate`. -/
theorem ofText_of_carries {s : Snapshot} {d : Json} {text : String}
    (hcarries : Carries (.record .snapshot) s.toJson d) (hparse : parse? text = some d)
    (h : d.height ≤ maxHeight) : ofText .json text = s.sound := by
  have hread : (some d).bind (fun v => ofDocument? v.view) = some s :=
    s.finds d hcarries maxHeight h
  unfold ofText
  rw [hparse, hread]

/-- A text that is read as what was written holds the snapshot, and the snapshot is checked. -/
theorem ofText_of_parse? {s : Snapshot} {text : String} (hparse : parse? text = some s.toJson)
    (h : s.toJson.height ≤ maxHeight) : ofText .json text = s.sound :=
  ofText_of_carries s.carries_self hparse h

/-- **A snapshot survives its text, and is judged by what it holds.**  Written in either
layout and read again, it is what it was when it is sound, and is refused for the fault that
the check finds in it when it is not; as long as the document nests no deeper than a reader
goes, it is never refused as malformed. -/
theorem ofText_toJson (s : Snapshot) (h : s.toJson.height ≤ maxHeight) :
    ∀ text ∈ [s.toJson.compact, s.toJson.pretty],
      (s.validate = .ok () → ofText .json text = .ok s) ∧
        (∀ fault, s.validate = .error fault →
          ofText .json text = .error (.invalidSnapshot fault)) ∧
        ofText .json text ≠ .error .malformedJson := by
  intro text htext
  have hparse : parse? text = some s.toJson := by
    rcases List.mem_pair.mp htext with rfl | rfl
    · exact parse?_compact s.isPrintable_toJson
    · exact parse?_pretty s.isPrintable_toJson
  rw [ofText_of_parse? hparse h]
  unfold sound
  cases s.validate with
  | ok found => simp
  | error fault => simp

/-- A cache and an entry declared inside it, with a parameter at the last place there is. -/
def cache : Snapshot where
  classes :=
    [⟨⟨"app.Cache"⟩, none, true,
        [⟨"limits", .applied ⟨"app.Table"⟩ [.named ⟨"app.Key"⟩, .array (.primitive .long)]⟩]⟩,
      ⟨⟨"app.Cache$Entry"⟩, some ⟨"app.Cache"⟩, false, []⟩]
  injectionPoints :=
    [⟨.parameter ⟨"app.Main"⟩ "start" 18446744073709551615 "limit", .primitive .long,
      [⟨⟨"app.Property"⟩, .ofList [("name", "a \"quoted\" \\ name\n")]⟩], false⟩]
  declarations := [⟨⟨⟨"app.Mapping"⟩, ∅⟩, .method ⟨"app.Main"⟩ "cache"⟩]
  configRoots := [⟨⟨"app.Root"⟩, .buildAndRuntimeFixed⟩]

/-- The snapshot `cache` with each class listed a second time. -/
def cacheTwice : Snapshot := { cache with classes := cache.classes ++ cache.classes }

/-- The snapshot `cache` comes back from its compact text, and `cacheTwice` is refused for the
class that it lists again. -/
theorem ofText_toJson_cache :
    cache.toJson.height ≤ maxHeight ∧ ofText .json cache.toJson.compact = .ok cache ∧
      cacheTwice.toJson.height ≤ maxHeight ∧
      ofText .json cacheTwice.toJson.pretty =
        .error (.invalidSnapshot (.repeatedName ⟨"app.Cache"⟩)) := by
  have hcache : cache.toJson.height ≤ maxHeight := by decide
  have htwice : cacheTwice.toJson.height ≤ maxHeight := by decide
  have hsound := (ofText_toJson cache hcache cache.toJson.compact (by simp)).1
  have hrepeated := (ofText_toJson cacheTwice htwice cacheTwice.toJson.pretty (by simp)).2.1
  exact ⟨hcache, hsound (by decide), htwice, hrepeated _ (by decide)⟩

end Snapshot

end ConfigBinder
