/-
Names and types are read back as they were written.

A type is written as a record that says its kind, and types nest, so its members are read
ahead before their meaning is known.  The fuel of `TypeRef.ofKinded?` is the height of that
data.  The data of a nested type is lower than that of the type around it
(`height_member_lt`), wherever the member with it stands, so the fuel does not run out before
the type does.
-/
import ConfigBinder.Proofs.Schema.Carried
import ConfigBinder.Schema.Type

namespace ConfigBinder

open Json

/-! ### Names -/

@[simp] theorem QualifiedName.isPrintable_toJson (n : QualifiedName) : n.toJson.IsPrintable :=
  isPrintable_text n.text

theorem QualifiedName.reads (n : QualifiedName) : Reads ofDocument? n.toJson n := fun _ _ => rfl

/-! ### Types -/

namespace TypeRef

/-- The kind that a type is written with. -/
def kindName : TypeRef → String
  | .primitive _ => "primitive"
  | .named _ => "class"
  | .applied _ _ => "parameterized"
  | .array _ => "array"

/-- The members that a type is written with behind its kind. -/
def others : TypeRef → List (String × Json)
  | .primitive p => [("primitive", p.toJson)]
  | .named n => [("name", n.toJson)]
  | .applied n arguments => [("name", n.toJson), ("arguments", .array (toJsons arguments))]
  | .array e => [("component", e.toJson)]

theorem toJson_eq (t : TypeRef) : t.toJson = kindedObject t.kindName t.others := by
  cases t <;> rfl

theorem kind_not_mem_others (t : TypeRef) : "kind" ∉ t.others.map (·.1) := by
  cases t with
  | primitive p | named n | applied n arguments | array e => simp [others]

theorem toJsons_eq_map (ts : List TypeRef) : toJsons ts = ts.map toJson := by
  induction ts with
  | nil => rfl
  | cons t rest ih => rw [toJsons, ih, List.map_cons]

mutual
@[simp] theorem isPrintable_toJson : ∀ t : TypeRef, t.toJson.IsPrintable
  | .primitive p => by simp [toJson, Primitive.toJson]
  | .named n => by simp [toJson]
  | .applied n arguments => by
      have harguments := isPrintable_toJsons arguments
      simp [toJson, harguments]
  | .array e => by
      have helement := isPrintable_toJson e
      simp [toJson, helement]
theorem isPrintable_toJsons : ∀ ts : List TypeRef, (Json.array (toJsons ts)).IsPrintable
  | [] => by simp [toJsons]
  | t :: rest => by
      have hfirst := isPrintable_toJson t
      have hrest := isPrintable_toJsons rest
      simp only [toJsons, isPrintable_array, List.forall_mem_cons] at hrest ⊢
      exact ⟨hfirst, hrest⟩
end

/-! ### Fuel

The induction is on the fuel, which is what the reader recurses on.  The type is any, and what
carries it may hold the members of a nested type anywhere.
-/

private theorem height_le_heightOfItems {d : Datum} {items : List Datum} (h : d ∈ items) :
    d.height ≤ Datum.heightOfItems items := by
  induction items with
  | nil => exact nomatch h
  | cons e rest ih =>
      rw [Datum.heightOfItems]
      rcases List.mem_cons.mp h with rfl | h
      · exact Nat.le_max_left _ _
      · exact Nat.le_trans (ih h) (Nat.le_max_right _ _)

private theorem heightOfEntries_le {entries : List (Datum × Datum)} {n : Nat} :
    Datum.heightOfEntries entries ≤ n ↔ ∀ e ∈ entries, e.2.height ≤ n := by
  induction entries with
  | nil => simp [Datum.heightOfEntries]
  | cons e rest ih =>
      obtain ⟨k, d⟩ := e
      rw [Datum.heightOfEntries, Nat.max_le, ih]
      simp only [List.forall_mem_cons]

/-- What stands behind the kind is no higher than the whole record. -/
theorem height_rest_le (kind : String) (ws : List (String × Json)) :
    (kindedData kind (besidesKind ws)).rest.height ≤ (Json.object ws).asDatum.height := by
  show Datum.heightOfEntries (asEntries (besidesKind ws)) + 1 ≤
    Datum.heightOfEntries (asEntries ws) + 1
  refine Nat.succ_le_succ (heightOfEntries_le.mpr ?_)
  intro e he
  rw [asEntries_eq_map] at he ⊢
  obtain ⟨m, hm, rfl⟩ := List.mem_map.mp he
  exact heightOfEntries_le.mp (Nat.le_refl _) _
    (List.mem_map.mpr ⟨m, List.mem_of_mem_filter hm, rfl⟩)

/-- The data of a member is lower than what stands behind the kind, as `height` counts. -/
theorem height_member_lt (kind : String) {name : String} {ws : List (String × Json)} {w : Json}
    (hmem : (name, w) ∈ ws) (hname : name ≠ "kind") :
    w.asDatum.height < (kindedData kind (besidesKind ws)).rest.height := by
  have hbesides : (name, w) ∈ besidesKind ws :=
    List.mem_filter.mpr ⟨hmem, decide_eq_true hname⟩
  refine Nat.lt_succ_of_le (heightOfEntries_le.mp (Nat.le_refl _) (.text name, w.asDatum) ?_)
  rw [asEntries_eq_map]
  exact List.mem_map.mpr ⟨_, hbesides, rfl⟩

/-- The type that data inside a type is, with the fuel that is left. -/
def ofDatum? (fuel : Nat) (d : Datum) : Option TypeRef := d.kinded?.bind (ofKinded? fuel)

section

variable {vs ws : List (String × Json)} {row : List String} {fuel : Nat}

/-- The element of an array is made of what carries it. -/
theorem component_of_stands (kind : String) {e : TypeRef} (hrow : "component" ∈ row)
    (h : Member.Stands ⟨"component", .record .type, none⟩ vs ws)
    (hv : valuesOf "component" vs = [e.toJson])
    (hnested : ∀ w, Carries (.record .type) e.toJson w →
      w.asDatum.height < (kindedData kind (besidesKind ws)).rest.height →
        ofDatum? fuel w.asDatum = some e) :
    (((known row ws).lookup "component").map asDatum).bind (ofDatum? fuel) = some e := by
  obtain ⟨v, w, hv', hcarries, ⟨hlook, hmem⟩ | ⟨-, hout⟩⟩ := h.lookup hrow
  · obtain rfl : v = e.toJson := List.singleton_inj.mp (hv'.symm.trans hv)
    rw [hlook]
    exact hnested w hcarries (height_member_lt kind hmem (by decide))
  · exact nomatch hout

/-- The arguments of an applied class are made of what carries them; there are none where they
are left out. -/
theorem arguments_of_stands (kind : String) {arguments : List TypeRef} (hrow : "arguments" ∈ row)
    (h : Member.Stands ⟨"arguments", .list .type, some (.array [])⟩ vs ws)
    (hv : valuesOf "arguments" vs = [.array (toJsons arguments)])
    (hnested : ∀ t w, Carries (.record .type) t.toJson w →
      w.asDatum.height < (kindedData kind (besidesKind ws)).rest.height →
        ofDatum? fuel w.asDatum = some t) :
    Document.orDefault [] (fun d : Datum => d.items?.bind (·.mapM (ofDatum? fuel)))
      (((known row ws).lookup "arguments").map asDatum) = some arguments := by
  obtain ⟨v, w, hv', hcarries, hlook⟩ := h.lookup hrow
  obtain rfl : v = .array (toJsons arguments) := List.singleton_inj.mp (hv'.symm.trans hv)
  rw [toJsons_eq_map] at hcarries
  rcases hlook with ⟨hlook, hmem⟩ | ⟨hlook, hout⟩
  · obtain ⟨ws', rfl⟩ := hcarries.of_array
    have hlist := height_member_lt kind hmem (by decide)
    rw [hlook]
    show (asData ws').mapM (ofDatum? fuel) = some arguments
    rw [asData_eq_map, List.mapM_map]
    refine mapM_of_carries hcarries ?_
    intro t _ w' hw' hcarries'
    have hitem : w'.asDatum.height ≤ Datum.heightOfItems (asData ws') :=
      height_le_heightOfItems (asData_eq_map ws' ▸ List.mem_map_of_mem hw')
    exact hnested t w' hcarries' (Nat.lt_trans (Nat.lt_succ_of_le hitem) hlist)
  · obtain rfl : Json.array [] = w := Option.some.inj hout
    rw [hlook]
    show ([] : List Json).mapM (fun _ => (none : Option TypeRef)) = some arguments
    exact mapM_of_carries hcarries (by simp)

private theorem ofKinded?_applied {n : QualifiedName} {arguments : List TypeRef}
    (hstands : ∀ m ∈ Form.type.row
        (("kind", .text "parameterized") :: others (.applied n arguments)),
      m.Stands (("kind", .text "parameterized") :: others (.applied n arguments)) ws)
    (hnested : ∀ t w, Carries (.record .type) t.toJson w →
      w.asDatum.height < (kindedData "parameterized" (besidesKind ws)).rest.height →
        ofDatum? fuel w.asDatum = some t) :
    ofKinded? (fuel + 1) (kindedData "parameterized" (besidesKind ws)) =
      some (.applied n arguments) := by
  have hname : Member.Stands ⟨"name", .value, none⟩ _ ws :=
    hstands _ (List.mem_cons_of_mem _ List.mem_cons_self)
  have harguments : Member.Stands ⟨"arguments", .list .type, some (.array [])⟩ _ ws :=
    hstands _ (List.mem_cons_of_mem _ (List.mem_cons_of_mem _ List.mem_cons_self))
  have hfields : (kindedData "parameterized" (besidesKind ws)).rest.fields?
      ["name", "arguments"] = _ :=
    fields?_kindedData (by decide) (List.forall_mem_cons.mpr
      ⟨hname.length_le_one, List.forall_mem_singleton.mpr harguments.length_le_one⟩)
  have hnames : (known ["name", "arguments"] ws).lookup "name" = some n.toJson := by
    rw [lookup_known, if_pos (by decide), hname.valuesOf_eq]
    rfl
  have hfound : Document.orDefault [] _
      (((known ["name", "arguments"] ws).lookup "arguments").map asDatum) = _ :=
    arguments_of_stands "parameterized" (by decide) harguments rfl hnested
  show ((kindedData "parameterized" (besidesKind ws)).rest.fields?
    ["name", "arguments"]).bind _ = _
  rw [hfields]
  show ((((known ["name", "arguments"] ws).lookup "name").map asDatum).bind
    QualifiedName.ofDatum?).bind _ = _
  rw [hnames]
  exact congrArg (Option.bind · _) hfound

private theorem ofKinded?_array {e : TypeRef}
    (hstands : ∀ m ∈ Form.type.row (("kind", .text "array") :: others (.array e)),
      m.Stands (("kind", .text "array") :: others (.array e)) ws)
    (hnested : ∀ w, Carries (.record .type) e.toJson w →
      w.asDatum.height < (kindedData "array" (besidesKind ws)).rest.height →
        ofDatum? fuel w.asDatum = some e) :
    ofKinded? (fuel + 1) (kindedData "array" (besidesKind ws)) = some (.array e) := by
  have hcomponent : Member.Stands ⟨"component", .record .type, none⟩ _ ws :=
    hstands _ (List.mem_cons_of_mem _ List.mem_cons_self)
  have hfields : (kindedData "array" (besidesKind ws)).rest.fields? ["component"] = _ :=
    fields?_kindedData (by decide) (List.forall_mem_singleton.mpr hcomponent.length_le_one)
  have hfound : (((known ["component"] ws).lookup "component").map asDatum).bind _ = _ :=
    component_of_stands "array" List.mem_cons_self hcomponent rfl hnested
  show ((kindedData "array" (besidesKind ws)).rest.fields? ["component"]).bind _ = _
  rw [hfields]
  exact congrArg (Option.bind · _) hfound

end

/-- `ofKinded?` makes a type of the data of whatever carries it, when the fuel exceeds the height
of the data. -/
theorem ofKinded?_of_stands (fuel : Nat) : ∀ (t : TypeRef) (ws : List (String × Json)),
    (∀ m ∈ Form.type.row (("kind", .text t.kindName) :: t.others),
      m.Stands (("kind", .text t.kindName) :: t.others) ws) →
    (kindedData t.kindName (besidesKind ws)).rest.height < fuel →
      ofKinded? fuel (kindedData t.kindName (besidesKind ws)) = some t := by
  induction fuel with
  | zero => intro t ws _ h; omega
  | succ fuel ih =>
      intro t ws hstands hfuel
      have hnested : ∀ (e : TypeRef) (w : Json), Carries (.record .type) e.toJson w →
          w.asDatum.height < (kindedData t.kindName (besidesKind ws)).rest.height →
            ofDatum? fuel w.asDatum = some e := by
        intro e w hcarries hheight
        rw [toJson_eq] at hcarries
        obtain ⟨ws', rfl, hstands', -⟩ := hcarries.of_object
        obtain ⟨hkind, -⟩ := valuesOf_kind_cons e.kindName e.kind_not_mem_others
        rw [← (hstands' _ (Form.kind_mem_row rfl _)).valuesOf_eq] at hkind
        have hrest := height_rest_le e.kindName ws'
        rw [ofDatum?, kinded?_asDatum hkind]
        exact ih e ws' hstands' (by omega)
      cases t with
      | primitive p =>
          have hfields : (kindedData "primitive" (besidesKind ws)).rest.fields? ["primitive"] = _ :=
            fields?_of_values "primitive" hstands (List.subset_cons_self _ _) (by decide)
          show ((kindedData "primitive" (besidesKind ws)).rest.fields? ["primitive"]).bind _ = _
          rw [hfields]
          cases p <;> rfl
      | named n =>
          have hfields : (kindedData "class" (besidesKind ws)).rest.fields? ["name"] = _ :=
            fields?_of_values "class" hstands (List.subset_cons_self _ _) (by decide)
          show ((kindedData "class" (besidesKind ws)).rest.fields? ["name"]).bind _ = _
          rw [hfields]
          rfl
      | applied n arguments => exact ofKinded?_applied hstands hnested
      | array e => exact ofKinded?_array hstands (hnested e)

/-- **A type is found in whatever carries it**, however deep it nests. -/
theorem finds (t : TypeRef) : Finds ofDocument? (.record .type) t.toJson t := by
  obtain ⟨hkind, -⟩ := valuesOf_kind_cons t.kindName t.kind_not_mem_others
  rw [toJson_eq]
  refine finds_kinded rfl hkind ?_
  intro ws hstands
  exact ofKinded?_of_stands _ t ws hstands (Nat.lt_succ_self _)

mutual
theorem carries_self : ∀ t : TypeRef, Carries (.record .type) t.toJson t.toJson
  | .primitive p =>
      carries_self_record (.cons ⟨rfl, .value _⟩ (.cons ⟨rfl, .value _⟩ .nil))
        fun _ e he => (isPrintable_object.mp (isPrintable_toJson (.primitive p)) e he).hasData
  | .named n =>
      carries_self_record (.cons ⟨rfl, .value _⟩ (.cons ⟨rfl, .value _⟩ .nil))
        fun _ e he => (isPrintable_object.mp (isPrintable_toJson (.named n)) e he).hasData
  | .applied n arguments => by
      have harguments : Carries (.list .type) (.array (toJsons arguments))
          (.array (toJsons arguments)) :=
        toJsons_eq_map arguments ▸ carries_self_list (carries_selves arguments)
      have hprint := isPrintable_object.mp (isPrintable_toJson (.applied n arguments))
      refine carries_self_record ?_ fun _ e he => (hprint e he).hasData
      exact .cons ⟨rfl, .value _⟩ (.cons ⟨rfl, .value _⟩ (.cons ⟨rfl, harguments⟩ .nil))
  | .array e => by
      have helement := carries_self e
      have hprint := isPrintable_object.mp (isPrintable_toJson (.array e))
      refine carries_self_record ?_ fun _ e he => (hprint e he).hasData
      exact .cons ⟨rfl, .value _⟩ (.cons ⟨rfl, helement⟩ .nil)
theorem carries_selves : ∀ ts : List TypeRef, ∀ t ∈ ts,
    Carries (.record .type) t.toJson t.toJson
  | [] => fun _ h => nomatch h
  | t :: rest => List.forall_mem_cons.mpr ⟨carries_self t, carries_selves rest⟩
end

/-- **A type is read back as it was written**, however deep it nests. -/
theorem reads (t : TypeRef) : Reads ofDocument? t.toJson t := t.finds t.toJson t.carries_self

end TypeRef

end ConfigBinder
