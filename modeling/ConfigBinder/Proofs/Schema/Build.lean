/-
What a pass hands over is read back as it was written.

Each kind of item is a record, and its `reads` is put together from those of its members.  A
map is written as its entries and a set as its members, both in their order, and put together
again they are the same map and the same set.  Numbers occur only as bytes, so what is
written `IsPrintable`, and its text is read as the value it was written from.
-/
import ConfigBinder.Proofs.Ordered
import ConfigBinder.Proofs.Schema.Type
import ConfigBinder.Schema.Text

namespace ConfigBinder

open Document Json

/-! ### Components -/

@[simp] theorem Scope.isPrintable_toJson (s : Scope) : s.toJson.IsPrintable :=
  isPrintable_text s.name

theorem Scope.reads (s : Scope) : Reads ofDocument? s.toJson s := by
  intro levels _
  cases s <;> rfl

namespace Creator

/-- The kind that a creator is written with. -/
def kindName : Creator → String
  | .bean _ => "config_bean"
  | .mapping _ => "config_mapping"
  | .root _ _ => "config_root"

/-- The members that a creator is written with behind its kind. -/
def others : Creator → List (String × Json)
  | .bean c => [("creator", c.toJson)]
  | .mapping c => [("creator", c.toJson)]
  | .root r p => [("root", r.toJson), ("phase", p.toJson)]

theorem toJson_eq (c : Creator) : c.toJson = kindedObject c.kindName c.others := by
  cases c <;> rfl

@[simp] theorem isPrintable_toJson (c : Creator) : c.toJson.IsPrintable := by
  cases c with
  | bean n | mapping n => simp [toJson]
  | root r p => simp [toJson, ConfigPhase.toJson]

theorem reads (c : Creator) : Reads ofDocument? c.toJson c := by
  have hprint := c.isPrintable_toJson
  rw [toJson_eq] at hprint ⊢
  refine reads_of_kinded ?_ hprint ?_
  · cases c with
    | bean n | mapping n | root r p => simp [others]
  · cases c with
    | bean n | mapping n => rfl
    | root r p => cases p <;> rfl

end Creator

@[simp] theorem ParamValue.isPrintable_toJson (v : ParamValue) : v.toJson.IsPrintable := by
  cases v with
  | text s | type n => simp [toJson]

theorem ParamValue.reads (v : ParamValue) : Reads ofDocument? v.toJson v := by
  cases v with
  | text s | type n => exact reads_record rfl (by decide) fun _ _ => rfl

@[simp] theorem Component.isPrintable_toJson (c : Component) : c.toJson.IsPrintable := by
  have hparams : (Json.object (c.params.entries.map fun e => (e.1, e.2.toJson))).IsPrintable :=
    isPrintable_map ParamValue.toJson fun e _ => e.2.isPrintable_toJson
  have hlists : (Json.array (c.types.map TypeRef.toJson)).IsPrintable ∧
      (Json.array (c.qualifiers.map QualifiedName.toJson)).IsPrintable := by simp
  refine isPrintable_object.mpr ?_
  simp only [List.forall_mem_cons, List.not_mem_nil, false_imp_iff, implies_true, and_true]
  exact ⟨c.implementation.isPrintable_toJson, c.providerType.isPrintable_toJson, hlists.1,
    hlists.2, c.scope.isPrintable_toJson, c.creator.isPrintable_toJson, hparams⟩

/-- A component is read back with its parameters. -/
theorem Component.reads (c : Component) : Reads ofDocument? c.toJson c := by
  refine reads_record rfl (by decide) ?_
  intro levels h
  have himplementation := c.implementation.reads.member "implementation" rfl h
  have hprovider := c.providerType.reads.member "provider_type" rfl h
  have htypes := (reads_list fun t (_ : t ∈ c.types) => t.reads).member "types" rfl h
  have hqualifiers :=
    (reads_list fun q (_ : q ∈ c.qualifiers) => q.reads).member "qualifiers" rfl h
  have hscope := c.scope.reads.member "scope" rfl h
  have hcreator := c.creator.reads.member "creator" rfl h
  have hparams := (reads_map ParamValue.toJson fun e (_ : e ∈ c.params.entries) => e.2.reads).member
    "params" rfl h
  simp only [himplementation, hprovider, htypes, hqualifiers, hscope, hcreator, hparams]
  show some { c with params := OrderedMap.ofList c.params.entries } = some c
  rw [OrderedMap.ofList_entries]

/-! ### Other items -/

@[simp] theorem AdditionalComponent.isPrintable_toJson (c : AdditionalComponent) :
    c.toJson.IsPrintable := by simp [toJson]

theorem AdditionalComponent.reads (c : AdditionalComponent) : Reads ofDocument? c.toJson c :=
  reads_record rfl (by decide) fun _ _ => rfl

@[simp] theorem ReflectiveClass.isPrintable_toJson (c : ReflectiveClass) :
    c.toJson.IsPrintable := by simp [toJson]

theorem ReflectiveClass.reads (c : ReflectiveClass) : Reads ofDocument? c.toJson c :=
  reads_record rfl (by decide) fun _ _ => rfl

namespace GeneratedClass

theorem isPrintable_byte (b : UInt8) : (Json.nat b.toNat).IsPrintable :=
  isPrintable_nat (Nat.lt_trans b.toNat_lt (by decide))

@[simp] theorem isPrintable_toJson (c : GeneratedClass) : c.toJson.IsPrintable := by
  simp [toJson, isPrintable_byte]

/-- `byteOfDocument?` reads a byte back from its number. -/
theorem reads_byte (b : UInt8) : Reads byteOfDocument? (.nat b.toNat) b := by
  intro levels hlevels
  show Option.bind (natural? (⟨.nat b.toNat, levels⟩ : View))
    (fun n => if n < UInt8.size then some (UInt8.ofNat n) else none) = some b
  rw [reads_natural b.toNat levels hlevels]
  show (if b.toNat < UInt8.size then some (UInt8.ofNat b.toNat) else none) = some b
  rw [if_pos b.toNat_lt, UInt8.ofNat_toNat]

theorem reads (c : GeneratedClass) : Reads ofDocument? c.toJson c := by
  refine reads_record rfl (by decide) ?_
  intro levels h
  have hbytes := (reads_list fun b (_ : b ∈ c.bytes) => reads_byte b).member "bytes" rfl h
  simp only [hbytes]
  rfl

end GeneratedClass

@[simp] theorem ConfigProperty.isPrintable_toJson (p : ConfigProperty) :
    p.toJson.IsPrintable := by simp [toJson]

theorem ConfigProperty.reads (p : ConfigProperty) : Reads ofDocument? p.toJson p := by
  refine reads_record rfl (by decide) ?_
  intro levels h
  have htype := p.requiredType.reads.member "required_type" rfl h
  simp only [htype]
  rfl

@[simp] theorem ConfigMapping.isPrintable_toJson (m : ConfigMapping) :
    m.toJson.IsPrintable := by simp [toJson]

theorem ConfigMapping.reads (m : ConfigMapping) : Reads ofDocument? m.toJson m := by
  refine reads_record rfl (by decide) ?_
  intro levels h
  have himplementations := (reads_list fun s (_ : s ∈ m.implementations) => reads_text s).member
    "implementations" rfl h
  simp only [himplementations]
  rfl

/-! ### The startup plan -/

namespace PropertyTypes

/-- A set of types as a value. -/
def typesToJson (types : OrderedSet String) : Json := .array (types.members.map .text)

@[simp] theorem isPrintable_toJson (m : PropertyTypes) : m.toJson.IsPrintable := by
  refine isPrintable_map typesToJson ?_
  intro e he
  simp [typesToJson]

theorem reads_types (types : OrderedSet String) :
    Reads (fun d => OrderedSet.ofList <$> list? text? d) (typesToJson types) types := by
  have hmembers := (reads_list fun s (_ : s ∈ types.members) => reads_text s).map
    OrderedSet.ofList
  rw [OrderedSet.ofList_members] at hmembers
  exact hmembers

/-- Grouped properties are read back with the set of types of each. -/
theorem reads (m : PropertyTypes) : Reads ofDocument? m.toJson m := by
  have hentries := (reads_map typesToJson fun e (_ : e ∈ m.entries) => reads_types e.2).map
    OrderedMap.ofList
  rw [OrderedMap.ofList_entries] at hentries
  exact hentries

end PropertyTypes

@[simp] theorem MappingBinding.isPrintable_toJson (m : MappingBinding) :
    m.toJson.IsPrintable := by simp [toJson]

theorem MappingBinding.reads (m : MappingBinding) : Reads ofDocument? m.toJson m :=
  reads_record rfl (by decide) fun _ _ => rfl

@[simp] theorem StartupPlan.isPrintable_toJson (p : StartupPlan) : p.toJson.IsPrintable := by
  have hmappings : p.mappings.bindingsToJson.IsPrintable := by simp [OrderedSet.bindingsToJson]
  refine isPrintable_object.mpr ?_
  simp only [List.forall_mem_cons, List.not_mem_nil, false_imp_iff, implies_true, and_true]
  exact ⟨p.propertyTypes.isPrintable_toJson, hmappings⟩

theorem StartupPlan.reads (p : StartupPlan) : Reads ofDocument? p.toJson p := by
  refine reads_record rfl (by decide) ?_
  intro levels h
  have htypes := p.propertyTypes.reads.member "property_types" rfl h
  have hmappings := (reads_list fun m (_ : m ∈ p.mappings.members) => m.reads).member
    "mappings" rfl h
  simp only [htypes, hmappings]
  show some { p with mappings := OrderedSet.ofList p.mappings.members } = some p
  rw [OrderedSet.ofList_members]

/-! ### The whole output -/

namespace BuildOutput

theorem isPrintable_toJson (o : BuildOutput) : o.toJson.IsPrintable := by
  refine isPrintable_object.mpr ?_
  simp only [List.forall_mem_cons, List.not_mem_nil, false_imp_iff, implies_true, and_true]
  refine ⟨?_, ?_, ?_, ?_, ?_, ?_, o.plan.isPrintable_toJson⟩
  all_goals simp

theorem reads (o : BuildOutput) : Reads ofDocument? o.toJson o := by
  refine reads_record rfl (by decide) ?_
  intro levels h
  have hadditional := (reads_list fun c (_ : c ∈ o.items.additional) => c.reads).member
    "additional_components" rfl h
  have hsynthetic := (reads_list fun c (_ : c ∈ o.items.synthetic) => c.reads).member
    "synthetic_components" rfl h
  have hreflective := (reads_list fun c (_ : c ∈ o.items.reflective) => c.reads).member
    "reflective_classes" rfl h
  have hgenerated := (reads_list fun c (_ : c ∈ o.items.generated) => c.reads).member
    "generated_classes" rfl h
  have hproperties := (reads_list fun p (_ : p ∈ o.items.properties) => p.reads).member
    "config_properties" rfl h
  have hmappings := (reads_list fun m (_ : m ∈ o.items.mappings) => m.reads).member
    "config_mappings" rfl h
  have hplan := o.plan.reads.member "startup_plan" rfl h
  simp only [hadditional, hsynthetic, hreflective, hgenerated, hproperties, hmappings, hplan]
  rfl

/-- **What a pass hands over survives its text.**  Written as indented text and read, it
is what it was, whatever texts, bytes and types it holds, as long as the document nests no
deeper than a reader goes. -/
theorem ofText_toText (o : BuildOutput) (h : o.toJson.height ≤ maxHeight) :
    ofText o.toText = .ok o := by
  unfold ofText toText
  have hread : (some o.toJson).bind (fun v => ofDocument? v.view) = some o :=
    o.reads maxHeight h
  rw [parse?_pretty o.isPrintable_toJson, hread]

/-- A component for arrays of an applied type, with a parameter whose text needs
escapes. -/
def hostsComponent : Component where
  implementation := ⟨"app.Creator"⟩
  providerType := .array (.applied ⟨"app.Pair"⟩ [.named ⟨"app.Key"⟩, .array (.primitive .byte)])
  types := [.array (.applied ⟨"app.Pair"⟩ [.named ⟨"app.Key"⟩, .array (.primitive .byte)])]
  qualifiers := []
  scope := .dependent
  creator := .root ⟨"app.Root"⟩ .runtime
  params := .ofList [("note", .text "a \"quoted\" \\ text\n\x01"), ("type", .type ⟨"app.Host[]"⟩)]

/-- The output of a pass with `hostsComponent`, a generated class, a property of two types and a
mapping. -/
def hostsOutput : BuildOutput where
  items := { (∅ : Collected) with
    synthetic := [hostsComponent]
    generated := [⟨"app.Hosts$$CMImpl", [0, 10, 255], ⟨"app.Hosts"⟩, true⟩] }
  plan := ⟨.ofList [("app.hosts", .ofList ["app.Host[]", "int"])],
    .ofList [⟨⟨"app.Hosts"⟩, "hosts"⟩]⟩

/-- The document of `hostsOutput` nests nine levels deep, and it is read back. -/
theorem ofText_toText_hosts :
    hostsOutput.toJson.height ≤ maxHeight ∧ ofText hostsOutput.toText = .ok hostsOutput := by
  have hheight : hostsOutput.toJson.height ≤ maxHeight := by decide
  exact ⟨hheight, ofText_toText hostsOutput hheight⟩

end BuildOutput

end ConfigBinder
