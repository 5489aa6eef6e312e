/-
Edits that leave what a snapshot says as it is.

A written snapshot is made of records, some of which say their kind.  A record may list its
members in another order, have members that its reader does not know, and leave out a member
that has a default and holds it.  Such an `Edit` may be made anywhere and any number of times.

What they preserve is `Carries`, stated between the document at the outset and the edited one:
each member that the first one has stands once in the second, and carries what it carried, or
is left out there because that is the default.  Records that say their kind are read ahead as
data, so in them nothing may stand that has none.
-/
import ConfigBinder.Proofs.Json.Document
import Mathlib.Logic.Relation

namespace ConfigBinder

open Json

/-! ### What records are made of -/

/-- The records that a snapshot is written with. -/
inductive Form where
  | snapshot
  | classEntry
  | method
  | injectionPoint
  | attached
  | declaration
  | configRoot
  | type
  | injectionTarget
  | declarationTarget
  deriving DecidableEq, Repr

/-- How a thing is written: as a value without records inside, as a list of records, or as a
record. -/
inductive Shape where
  | value
  | list (item : Form)
  | record (form : Form)
  deriving DecidableEq, Repr

/-- A member that the reader of a record knows. -/
structure Member where
  name : String
  shape : Shape
  /-- What a member that is left out holds, when it may be left out. -/
  fallback : Option Json

/-- The known members of the records of a form, by kind where the records say it. -/
inductive Rows where
  | plain (row : List Member)
  | kinded (rows : List (String × List Member))

/-- The member that says the kind. -/
def Member.kind : Member := ⟨"kind", .value, none⟩

/-- The members that the record with the given ones is to have: in `kinded` rows they go by the
kind that is given. -/
def Rows.row (members : List (String × Json)) : Rows → List Member
  | .plain row => row
  | .kinded rows =>
    .kind :: match valuesOf "kind" members with
      | [.text kind] => (rows.lookup kind).getD []
      | _ => []

namespace Form

/-- The known members of each form. -/
def rows : Form → Rows
  | .snapshot =>
    .plain [⟨"classes", .list .classEntry, some (.array [])⟩,
      ⟨"injection_points", .list .injectionPoint, some (.array [])⟩,
      ⟨"declarations", .list .declaration, some (.array [])⟩,
      ⟨"config_roots", .list .configRoot, some (.array [])⟩]
  | .classEntry =>
    .plain [⟨"name", .value, none⟩, ⟨"enclosing_class", .value, some .null⟩,
      ⟨"interface", .value, some (.bool false)⟩, ⟨"methods", .list .method, some (.array [])⟩]
  | .method => .plain [⟨"name", .value, none⟩, ⟨"return_type", .record .type, none⟩]
  | .injectionPoint =>
    .plain [⟨"target", .record .injectionTarget, none⟩, ⟨"required_type", .record .type, none⟩,
      ⟨"qualifiers", .list .attached, some (.array [])⟩,
      ⟨"defaulted_qualifier", .value, some (.bool false)⟩]
  | .attached => .plain [⟨"name", .value, none⟩, ⟨"values", .value, some (.object [])⟩]
  | .declaration =>
    .plain [⟨"annotation", .record .attached, none⟩,
      ⟨"target", .record .declarationTarget, none⟩]
  | .configRoot => .plain [⟨"class", .value, none⟩, ⟨"phase", .value, none⟩]
  | .type =>
    .kinded [("primitive", [⟨"primitive", .value, none⟩]), ("class", [⟨"name", .value, none⟩]),
      ("parameterized",
        [⟨"name", .value, none⟩, ⟨"arguments", .list .type, some (.array [])⟩]),
      ("array", [⟨"component", .record .type, none⟩])]
  | .injectionTarget =>
    .kinded [("field", [⟨"declaring_class", .value, none⟩, ⟨"name", .value, none⟩]),
      ("parameter",
        [⟨"declaring_class", .value, none⟩, ⟨"method", .value, none⟩,
          ⟨"position", .value, none⟩, ⟨"name", .value, none⟩]),
      ("method", [⟨"declaring_class", .value, none⟩, ⟨"name", .value, none⟩]),
      ("class", [⟨"name", .value, none⟩])]
  | .declarationTarget =>
    .kinded [("class", [⟨"name", .value, none⟩]),
      ("field", [⟨"declaring_class", .value, none⟩, ⟨"name", .value, none⟩]),
      ("method", [⟨"declaring_class", .value, none⟩, ⟨"name", .value, none⟩])]

/-- Whether the records of a form say their kind. -/
def saysKind (f : Form) : Bool :=
  match f.rows with
  | .plain _ => false
  | .kinded _ => true

/-- The known members of a record. -/
def row (f : Form) (members : List (String × Json)) : List Member := f.rows.row members

end Form

/-! ### Edits -/

/-- One edit of a document, where `Admits` says which values an unknown member of a record
may be added with. -/
inductive Edit (Admits : Form → Json → Prop) : Shape → Json → Json → Prop
  /-- The members of a record come in another order. -/
  | reorder {f ms ms'} (hperm : ms.Perm ms') : Edit Admits (.record f) (.object ms) (.object ms')
  /-- A record gets a member that its reader does not know. -/
  | add {f before after} (name : String) (v : Json)
      (hname : name ∉ (f.row (before ++ after)).map (·.name)) (hadmits : Admits f v) :
      Edit Admits (.record f) (.object (before ++ after)) (.object (before ++ (name, v) :: after))
  /-- A member that holds its default is left out. -/
  | leaveOut {f before after} (m : Member) (v : Json)
      (hm : m ∈ f.row (before ++ (m.name, v) :: after)) (hfallback : m.fallback = some v) :
      Edit Admits (.record f) (.object (before ++ (m.name, v) :: after)) (.object (before ++ after))
  /-- An edit inside a member of a record. -/
  | member {f before after v v'} (m : Member) (hm : m ∈ f.row (before ++ (m.name, v) :: after))
      (hedit : Edit Admits m.shape v v') :
      Edit Admits (.record f) (.object (before ++ (m.name, v) :: after))
        (.object (before ++ (m.name, v') :: after))
  /-- An edit inside an item of a list. -/
  | item {f v v'} {vs : List Json} (i : Nat) (hitem : vs[i]? = some v)
      (hedit : Edit Admits (.record f) v v') :
      Edit Admits (.list f) (.array vs) (.array (vs.set i v'))

/-- Any number of edits. -/
def Edits (Admits : Form → Json → Prop) (shape : Shape) : Json → Json → Prop :=
  Relation.ReflTransGen (Edit Admits shape)

/-- An unknown member may hold anything, but in a record that says its kind it has to have
data. -/
def Form.Admits (f : Form) (v : Json) : Prop := f.saysKind = true → v.HasData

/-! ### What edits preserve

`Carries` follows the shape of what was written: a value is the same, a list is carried item by
item, and a record member by member.
-/

/-- The second document carries what the first one says. -/
inductive Carries : Shape → Json → Json → Prop
  | value (v : Json) : Carries .value v v
  | list {f : Form} {vs ws : List Json} (hlength : vs.length = ws.length)
      (hitems : ∀ (i : Nat) (v w : Json), vs[i]? = some v → ws[i]? = some w →
        Carries (.record f) v w) :
      Carries (.list f) (.array vs) (.array ws)
  | record {f : Form} {vs ws : List (String × Json)} (said carried : Member → Json)
      (hsaid : ∀ m ∈ f.row vs, valuesOf m.name vs = [said m])
      (hmembers : ∀ m ∈ f.row vs, Carries m.shape (said m) (carried m))
      (hcarried : ∀ m ∈ f.row vs, valuesOf m.name ws = [carried m] ∨
        valuesOf m.name ws = [] ∧ m.fallback = some (carried m))
      (hdata : f.saysKind = true → ∀ e ∈ ws, e.2.HasData) :
      Carries (.record f) (.object vs) (.object ws)

/-- A member of one record stands in another, or is left out there for its default. -/
def Member.Stands (m : Member) (vs ws : List (String × Json)) : Prop :=
  ∃ v w, valuesOf m.name vs = [v] ∧ Carries m.shape v w ∧
    (valuesOf m.name ws = [w] ∨ valuesOf m.name ws = [] ∧ m.fallback = some w)

theorem carries_list {f : Form} {v : Json} {ws : List Json} :
    Carries (.list f) v (.array ws) ↔
      ∃ vs, v = .array vs ∧ List.Forall₂ (Carries (.record f)) vs ws := by
  refine ⟨?_, ?_⟩
  · intro h
    cases h with
    | list hlength hitems =>
        refine ⟨_, rfl, List.forall₂_iff_get.mpr ⟨hlength, ?_⟩⟩
        intro i hv hw
        exact hitems i _ _ (List.getElem?_eq_getElem hv) (List.getElem?_eq_getElem hw)
  · intro h
    obtain ⟨vs, rfl, hall⟩ := h
    obtain ⟨hlength, hitems⟩ := List.forall₂_iff_get.mp hall
    refine .list hlength ?_
    intro i v w hv hw
    obtain ⟨hiv, rfl⟩ := List.getElem?_eq_some_iff.mp hv
    obtain ⟨hiw, rfl⟩ := List.getElem?_eq_some_iff.mp hw
    exact hitems i hiv hiw

theorem carries_record {f : Form} {v : Json} {ws : List (String × Json)} :
    Carries (.record f) v (.object ws) ↔ ∃ vs, v = .object vs ∧
      (∀ m ∈ f.row vs, m.Stands vs ws) ∧ (f.saysKind = true → ∀ e ∈ ws, e.2.HasData) := by
  refine ⟨?_, ?_⟩
  · intro h
    cases h with
    | record said carried hsaid hmembers hcarried hdata =>
        refine ⟨_, rfl, ?_, hdata⟩
        intro m hm
        exact ⟨said m, carried m, hsaid m hm, hmembers m hm, hcarried m hm⟩
  · intro h
    obtain ⟨vs, rfl, hstands, hdata⟩ := h
    choose! said carried hsaid hmembers hcarried using hstands
    exact .record said carried hsaid hmembers hcarried hdata

/-- Only a list `Carries` a list. -/
theorem Carries.of_array {f : Form} {v w : Json} (h : Carries (.list f) v w) :
    ∃ ws, w = .array ws := by
  cases h with
  | @list _ _ ws _ _ => exact ⟨ws, rfl⟩

/-- Only a record `Carries` a record. -/
theorem Carries.of_object {f : Form} {vs : List (String × Json)} {w : Json}
    (h : Carries (.record f) (.object vs) w) : ∃ ws, w = .object ws ∧
      (∀ m ∈ f.row vs, m.Stands vs ws) ∧ (f.saysKind = true → ∀ e ∈ ws, e.2.HasData) := by
  obtain ⟨ws, rfl⟩ : ∃ ws, w = .object ws := by
    cases h with
    | @record _ _ ws _ _ _ _ _ _ => exact ⟨ws, rfl⟩
  obtain ⟨_, hvs, hstands, hdata⟩ := carries_record.mp h
  obtain rfl := Json.object.inj hvs
  exact ⟨ws, rfl, hstands, hdata⟩

/-! ### Rows

A row lists the members that the reader of a record knows.  Its names are all different, so an
edit of one member leaves the others as they are, and the row of the edited record is the row of
the first one.
-/

/-- All rows that records may have. -/
def Rows.all : Rows → List (List Member)
  | .plain row => [row]
  | .kinded rows => [.kind] :: rows.map (.kind :: ·.2)

private theorem Rows.row_mem_all (r : Rows) (members : List (String × Json)) :
    r.row members ∈ r.all := by
  cases r with
  | plain row => exact List.mem_singleton_self row
  | kinded rows =>
      rw [row, all]
      split
      · rename_i kind _
        cases hlook : rows.lookup kind with
        | none => exact List.mem_cons_self
        | some row =>
            obtain ⟨before, after, rfl, -⟩ := List.lookup_eq_some_iff.mp hlook
            simp
      · exact List.mem_cons_self

/-- A value that is part of data wherever it stands, or a record that is read ahead because it
`saysKind`. -/
def Shape.isAhead : Shape → Bool
  | .value => true
  | .list f => f.saysKind
  | .record f => f.saysKind

namespace Form

theorem nodup_names (f : Form) (members : List (String × Json)) :
    ((f.row members).map (·.name)).Nodup := by
  have hall : ∀ row ∈ f.rows.all, (row.map (·.name)).Nodup := by cases f <;> decide
  exact hall _ (f.rows.row_mem_all members)

theorem eq_of_name_eq {f : Form} {members : List (String × Json)} {m m' : Member}
    (hm : m ∈ f.row members) (hm' : m' ∈ f.row members) (h : m.name = m'.name) : m = m' :=
  List.inj_on_of_nodup_map (f.nodup_names members) hm hm' h

/-- In a record that is read ahead the records inside are read ahead as well. -/
theorem isAhead_of_mem_row {f : Form} {members : List (String × Json)} {m : Member}
    (hkind : f.saysKind = true) (hm : m ∈ f.row members) : m.shape.isAhead = true := by
  have hall : ∀ row ∈ f.rows.all, ∀ m ∈ row, m.shape.isAhead = true := by
    cases f with
    | type | injectionTarget | declarationTarget => decide
    | _ => exact nomatch hkind
  exact hall _ (f.rows.row_mem_all members) m hm

theorem kind_mem_row {f : Form} (h : f.saysKind = true) (members : List (String × Json)) :
    Member.kind ∈ f.row members := by
  rw [saysKind] at h
  rw [row]
  cases hrows : f.rows with
  | plain row =>
      rw [hrows] at h
      exact nomatch h
  | kinded rows => exact List.mem_cons_self

private theorem row_congr {f : Form} {members members' : List (String × Json)}
    (h : valuesOf "kind" members = valuesOf "kind" members') :
    f.row members = f.row members' := by
  rw [row, row]
  cases f.rows with
  | plain row => rfl
  | kinded rows => rw [Rows.row, Rows.row, h]

end Form

namespace Member.Stands

variable {m : Member} {vs ws ws' : List (String × Json)}

/-- A member without records inside and without a default that `Stands` in another record stands
there as it was. -/
theorem valuesOf_eq {name : String} (h : Member.Stands ⟨name, .value, none⟩ vs ws) :
    valuesOf name ws = valuesOf name vs := by
  obtain ⟨v, w, hv, hcarries, hw⟩ := h
  cases hcarries
  rcases hw with hw | ⟨-, hout⟩
  · exact hw.trans hv.symm
  · exact nomatch hout

theorem length_le_one (h : m.Stands vs ws) : (valuesOf m.name ws).length ≤ 1 := by
  obtain ⟨_, w, _, _, hw⟩ := h
  rcases hw with hw | ⟨hw, -⟩
  · rw [hw]
    exact Nat.le_refl 1
  · rw [hw]
    exact Nat.zero_le 1

theorem congr (h : m.Stands vs ws) (hvalues : valuesOf m.name ws' = valuesOf m.name ws) :
    m.Stands vs ws' := by
  obtain ⟨v, w, hv, hcarries, hw⟩ := h
  exact ⟨v, w, hv, hcarries, by rwa [hvalues]⟩

/-- Only one member has the name of a known one. -/
theorem replace {before after : List (String × Json)} {x : Json}
    (h : m.Stands vs (before ++ (m.name, x) :: after)) :
    ∃ v, valuesOf m.name vs = [v] ∧ Carries m.shape v x ∧
      valuesOf m.name (before ++ after) = [] ∧
        ∀ y, valuesOf m.name (before ++ (m.name, y) :: after) = [y] := by
  have honce := h.length_le_one
  obtain ⟨v, w, hv, hcarries, hw⟩ := h
  rw [valuesOf_insert_self, List.length_append, List.length_cons] at honce
  have hbefore : valuesOf m.name before = [] := List.length_eq_zero_iff.mp (by omega)
  have hafter : valuesOf m.name after = [] := List.length_eq_zero_iff.mp (by omega)
  have hvalues : ∀ y, valuesOf m.name (before ++ (m.name, y) :: after) = [y] := by
    intro y
    rw [valuesOf_insert_self, hbefore, hafter, List.nil_append]
  have hnone : valuesOf m.name (before ++ after) = [] := by
    rw [valuesOf_append, hbefore, hafter, List.append_nil]
  rw [hvalues] at hw
  rcases hw with hw | ⟨hw, -⟩
  · obtain rfl : x = w := List.singleton_inj.mp hw
    exact ⟨v, hv, hcarries, hnone, hvalues⟩
  · exact nomatch hw

/-- A member that holds its default may be left out. -/
theorem leaveOut {before after : List (String × Json)} {x : Json}
    (h : m.Stands vs (before ++ (m.name, x) :: after)) (hfallback : m.fallback = some x) :
    m.Stands vs (before ++ after) := by
  obtain ⟨v, hv, hcarries, hnone, -⟩ := h.replace
  exact ⟨v, x, hv, hcarries, .inr ⟨hnone, hfallback⟩⟩

/-- Where every known member `Stands` in the edited record, it has the `row` of the first one. -/
theorem row_eq {f : Form} (h : ∀ m ∈ f.row vs, m.Stands vs ws) : f.row ws = f.row vs := by
  cases hrows : f.rows with
  | plain row => rw [Form.row, Form.row, hrows, Rows.row, Rows.row]
  | kinded rows =>
      have hkind : f.saysKind = true := by rw [Form.saysKind, hrows]
      exact Form.row_congr (h _ (Form.kind_mem_row hkind vs)).valuesOf_eq

end Member.Stands

/-! ### One edit

The step is by induction on the edit: at its place it changes one record, and everywhere around
it one member or one item is replaced by one that carries the same.
-/

private theorem Edit.shape_ne_value {Admits : Form → Json → Prop} {shape : Shape} {v w : Json}
    (h : Edit Admits shape v w) : shape ≠ .value := by
  cases h with
  | reorder | add | leaveOut | member | item => exact Shape.noConfusion

/-- What `Carries` a record that is read ahead has data, and so has a list of such records. -/
theorem Carries.hasData {shape : Shape} {v w : Json} (h : Carries shape v w)
    (hahead : shape.isAhead = true) (hshape : shape ≠ .value) : w.HasData := by
  induction h with
  | value v => exact absurd rfl hshape
  | list hlength _ ih =>
      refine hasData_array.mpr ?_
      intro w hw
      obtain ⟨i, hi, rfl⟩ := List.getElem_of_mem hw
      exact ih i _ _ (List.getElem?_eq_getElem (hlength ▸ hi)) (List.getElem?_eq_getElem hi)
        hahead Shape.noConfusion
  | record _ _ _ _ _ hdata => exact hasData_object.mpr (hdata hahead)

/-- **An edited document carries what it carried before.** -/
theorem Carries.edit {shape : Shape} {v w w' : Json} (h : Carries shape v w)
    (hedit : Edit Form.Admits shape w w') : Carries shape v w' := by
  induction hedit generalizing v with
  | reorder hperm =>
      obtain ⟨vs, rfl, hstands, hdata⟩ := carries_record.mp h
      refine carries_record.mpr ⟨vs, rfl, ?_, ?_⟩
      · intro m hm
        have honce := (hstands m hm).length_le_one
        exact (hstands m hm).congr (valuesOf_eq_of_perm hperm.symm honce)
      · intro hkind e he
        exact hdata hkind e (hperm.mem_iff.mpr he)
  | add name x hname hadmits =>
      obtain ⟨vs, rfl, hstands, hdata⟩ := carries_record.mp h
      rw [Member.Stands.row_eq hstands] at hname
      refine carries_record.mpr ⟨vs, rfl, ?_, ?_⟩
      · intro m hm
        have hne : name ≠ m.name := fun heq => hname (heq ▸ List.mem_map_of_mem hm)
        exact (hstands m hm).congr (valuesOf_insert_of_ne x hne)
      · intro hkind e he
        rcases mem_insert.mp he with rfl | he
        · exact hadmits hkind
        · exact hdata hkind e he
  | leaveOut m x hm hfallback =>
      obtain ⟨vs, rfl, hstands, hdata⟩ := carries_record.mp h
      rw [Member.Stands.row_eq hstands] at hm
      refine carries_record.mpr ⟨vs, rfl, ?_, ?_⟩
      · intro m' hm'
        by_cases hname : m.name = m'.name
        · obtain rfl := Form.eq_of_name_eq hm hm' hname
          exact (hstands m hm).leaveOut hfallback
        · exact (hstands m' hm').congr (valuesOf_insert_of_ne x hname).symm
      · intro hkind e he
        exact hdata hkind e (mem_insert.mpr (.inr he))
  | @member f before after x x' m hm hedit ih =>
      obtain ⟨vs, rfl, hstands, hdata⟩ := carries_record.mp h
      rw [Member.Stands.row_eq hstands] at hm
      obtain ⟨v, hv, hcarries, -, hvalues⟩ := (hstands m hm).replace
      have hcarries' : Carries m.shape v x' := ih hcarries
      refine carries_record.mpr ⟨vs, rfl, ?_, ?_⟩
      · intro m' hm'
        by_cases hname : m.name = m'.name
        · obtain rfl := Form.eq_of_name_eq hm hm' hname
          exact ⟨v, x', hv, hcarries', .inl (hvalues x')⟩
        · refine (hstands m' hm').congr ?_
          rw [valuesOf_insert_of_ne x' hname, valuesOf_insert_of_ne x hname]
      · intro hkind e he
        rcases mem_insert.mp he with rfl | he
        · exact hcarries'.hasData (Form.isAhead_of_mem_row hkind hm) hedit.shape_ne_value
        · exact hdata hkind e (mem_insert.mpr (.inr he))
  | @item f x x' ws i hitem hedit ih =>
      cases h with
      | @list _ vs _ hlength hitems =>
          refine .list (by rw [List.length_set, hlength]) ?_
          intro j v w hv hw
          by_cases hij : i = j
          · subst hij
            rw [List.getElem?_set_self (List.getElem?_eq_some_iff.mp hitem).1] at hw
            obtain rfl := Option.some.inj hw
            exact ih (hitems i v x hv hitem)
          · rw [List.getElem?_set_ne hij] at hw
            exact hitems j v w hv hw

/-- So does a document after any number of edits. -/
theorem Carries.edits {shape : Shape} {v w w' : Json} (h : Carries shape v w)
    (hedits : Edits Form.Admits shape w w') : Carries shape v w' := by
  induction hedits with
  | refl => exact h
  | tail _ hedit ih => exact ih.edit hedit

end ConfigBinder
