/-
Readers find what a document carries.

A reader `Finds` a thing in whatever carries it: the members of a record where they stand, with
the default in the place of one that is left out, the items of a list one by one, and the
members behind a kind in the data that was read ahead.  A default is what its written form is
read as, so it makes no difference to the reader whether a member that holds it is there.
-/
import ConfigBinder.Proofs.Schema.Layout

namespace ConfigBinder

open Document Json

/-! ### Readers that find what is carried

`Member.Got` is what a reader has in hand when it has looked for a member, and the readers of
records are told by it alone: whether the member stood there, and where, is behind them.
-/

/-- The reader finds the thing in whatever carries it. -/
def Finds {α : Type} (read : View → Option α) (shape : Shape) (v : Json) (x : α) : Prop :=
  ∀ w, Carries shape v w → Reads read w x

/-- What a reader gets for a member of a record: what carries the member, or nothing where
that would be the default. -/
def Member.Got (m : Member) (vs : List (String × Json)) (levels : Nat) (got : Option View) :
    Prop :=
  ∃ v w, valuesOf m.name vs = [v] ∧ Carries m.shape v w ∧
    (got = some ⟨w, levels⟩ ∧ w.height ≤ levels ∨ got = none ∧ m.fallback = some w)

section

variable {α : Type} {read : View → Option α} {v : Json} {x : α} {shape : Shape} {f : Form}
  {vs : List (String × Json)} {levels : Nat}

theorem Json.Reads.finds (h : Reads read v x) : Finds read .value v x := by
  intro w hw
  cases hw
  exact h

theorem mapM_eq_some_of_forall₂ {γ : Type} {ask : γ → Option α} {asked : List γ} {xs : List α}
    (h : List.Forall₂ (fun a x => ask a = some x) asked xs) : asked.mapM ask = some xs := by
  induction h with
  | nil => rfl
  | cons ha _ ih =>
      rw [List.mapM_cons, ha, ih]
      rfl

/-- A list of records is read when each record that `Carries` an item is read as the item. -/
theorem mapM_of_carries {ask : Json → Option α} {write : α → Json} {xs : List α} {ws : List Json}
    (h : Carries (.list f) (.array (xs.map write)) (.array ws))
    (hask : ∀ x ∈ xs, ∀ w ∈ ws, Carries (.record f) (write x) w → ask w = some x) :
    ws.mapM ask = some xs := by
  obtain ⟨_, hvs, hall⟩ := carries_list.mp h
  obtain rfl := Json.array.inj hvs
  obtain ⟨hlength, hitems⟩ := List.forall₂_iff_get.mp (List.forall₂_map_left_iff.mp hall)
  refine mapM_eq_some_of_forall₂ (List.forall₂_iff_get.mpr ⟨hlength.symm, ?_⟩)
  intro i hw hx
  exact hask _ (List.get_mem _ _) _ (List.get_mem _ _) (hitems i hx hw)

/-- The reader `Finds` a list when it finds each of its records. -/
theorem finds_list {xs : List α} {write : α → Json}
    (h : ∀ x ∈ xs, Finds read (.record f) (write x) x) :
    Finds (list? read) (.list f) (.array (xs.map write)) xs := by
  intro w hw levels hlevels
  obtain ⟨ws, rfl⟩ := hw.of_array
  obtain ⟨inner, rfl, hheights⟩ := height_array_le hlevels
  show (ws.map fun w => (⟨w, inner⟩ : View)).mapM read = some xs
  rw [List.mapM_map]
  refine mapM_of_carries hw ?_
  intro x hx w hmem hcarries
  exact h x hx w hcarries inner (hheights w hmem)

/-- A lookup among the known members finds what carries the member, or nothing. -/
theorem Member.Stands.lookup {m : Member} {ws : List (String × Json)} {row : List String}
    (h : m.Stands vs ws) (hrow : m.name ∈ row) :
    ∃ v w, valuesOf m.name vs = [v] ∧ Carries m.shape v w ∧
      ((known row ws).lookup m.name = some w ∧ (m.name, w) ∈ ws ∨
        (known row ws).lookup m.name = none ∧ m.fallback = some w) := by
  obtain ⟨v, w, hv, hcarries, hw⟩ := h
  refine ⟨v, w, hv, hcarries, ?_⟩
  rw [lookup_known, if_pos hrow]
  rcases hw with hw | ⟨hw, hfallback⟩
  · exact .inl ⟨by rw [hw]; rfl, mem_valuesOf.mp (hw ▸ List.mem_singleton_self w)⟩
  · exact .inr ⟨by rw [hw]; rfl, hfallback⟩

/-- The reader `Finds` a record when it is made of what is got for its members (`Member.Got`). -/
theorem finds_record {row : List String} {build : (String → Option View) → Option α}
    (hrow : (f.row vs).map (·.name) = row)
    (h : ∀ levels get, (∀ m ∈ f.row vs, m.Got vs levels (get m.name)) → build get = some x) :
    Finds (fun d => fields? row d >>= build) (.record f) (.object vs) x := by
  intro w hw levels hlevels
  obtain ⟨ws, rfl, hstands, -⟩ := hw.of_object
  obtain ⟨inner, rfl, hheights⟩ := height_object_le hlevels
  have honce : ∀ name ∈ row, (valuesOf name ws).length ≤ 1 := by
    subst hrow
    intro name hname
    obtain ⟨m, hm, rfl⟩ := List.mem_map.mp hname
    exact (hstands m hm).length_le_one
  show Option.bind (fields? row (⟨.object ws, inner + 1⟩ : View)) build = some x
  rw [fields?_object honce]
  refine h inner _ ?_
  intro m hm
  have hname : m.name ∈ row := hrow ▸ List.mem_map_of_mem hm
  obtain ⟨v, w, hv, hcarries, hlook⟩ := (hstands m hm).lookup hname
  refine ⟨v, w, hv, hcarries, ?_⟩
  rw [member?]
  rcases hlook with ⟨hlook, hmem⟩ | ⟨hlook, hfallback⟩
  · exact .inl ⟨by rw [hlook]; rfl, hheights _ hmem⟩
  · exact .inr ⟨by rw [hlook]; rfl, hfallback⟩

/-- A member that must be there is found where it stands. -/
theorem Member.Got.required {name : String} {got : Option View}
    (h : Member.Got ⟨name, shape, none⟩ vs levels got) (hv : valuesOf name vs = [v])
    (hread : Finds read shape v x) : required read got = some x := by
  obtain ⟨v', w, hv', hcarries, ⟨rfl, hheight⟩ | ⟨-, hout⟩⟩ := h
  · obtain rfl : v' = v := List.singleton_inj.mp (hv'.symm.trans hv)
    exact hread w hcarries levels hheight
  · exact nomatch hout

/-- A member that may be left out is found where it stands, and else is the default. -/
theorem Member.Got.orDefault {name : String} {d : Json} {fallback : α} {got : Option View}
    (h : Member.Got ⟨name, shape, some d⟩ vs levels got) (hv : valuesOf name vs = [v])
    (hread : Finds read shape v x) (hfallback : Reads read d fallback) :
    orDefault fallback read got = some x := by
  obtain ⟨v', w, hv', hcarries, hgot⟩ := h
  obtain rfl : v' = v := List.singleton_inj.mp (hv'.symm.trans hv)
  rcases hgot with ⟨rfl, hheight⟩ | ⟨rfl, hout⟩
  · exact hread w hcarries levels hheight
  · -- The same value is read as the thing and as the default.
    obtain rfl : d = w := Option.some.inj hout
    exact (hfallback _ (Nat.le_refl _)).symm.trans (hread d hcarries _ (Nat.le_refl _))

/-- The reader `Finds` a record that says its kind when it is made of the data of what stands
behind the kind. -/
theorem finds_kinded {kind : String} {make : Kinded → Option α} (hkinded : f.saysKind = true)
    (hkind : valuesOf "kind" vs = [.text kind])
    (h : ∀ ws, (∀ m ∈ f.row vs, m.Stands vs ws) →
      make (kindedData kind (besidesKind ws)) = some x) :
    Finds (fun d => kinded? d >>= make) (.record f) (.object vs) x := by
  intro w hw
  obtain ⟨ws, rfl, hstands, hdata⟩ := hw.of_object
  have hkind' : valuesOf "kind" ws = [.text kind] :=
    (hstands _ (Form.kind_mem_row hkinded vs)).valuesOf_eq.trans hkind
  exact reads_of_kind hkind' (hdata hkinded) (h ws hstands)

/-- The data of members without records inside is what it was. -/
theorem fields?_of_values (kind : String) {row : List String} {ws : List (String × Json)}
    (hstands : ∀ m ∈ f.row vs, m.Stands vs ws)
    (hrow : (row.map fun name => ⟨name, .value, none⟩) ⊆ f.row vs) (hkind : "kind" ∉ row) :
    (kindedData kind (besidesKind ws)).rest.fields? row =
      (kindedData kind (besidesKind vs)).rest.fields? row := by
  have hthere : ∀ name ∈ row, Member.Stands ⟨name, .value, none⟩ vs ws := fun name hname =>
    hstands _ (hrow (List.mem_map.mpr ⟨name, hname, rfl⟩))
  have hvalues : ∀ name ∈ row, valuesOf name ws = valuesOf name vs := fun name hname =>
    (hthere name hname).valuesOf_eq
  have honce : ∀ name ∈ row, (valuesOf name ws).length ≤ 1 := fun name hname =>
    (hthere name hname).length_le_one
  have honce' : ∀ name ∈ row, (valuesOf name vs).length ≤ 1 := by
    intro name hname
    rw [← hvalues name hname]
    exact honce name hname
  rw [fields?_kindedData hkind honce, fields?_kindedData hkind honce']
  refine congrArg some (funext fun name => ?_)
  rw [lookup_known, lookup_known]
  by_cases hname : name ∈ row
  · rw [hvalues name hname]
  · rw [if_neg hname, if_neg hname]

/-- A record of a kind that has only such members is found when it was made of them. -/
theorem finds_values {kind : String} {others : List (String × Json)} {make : Kinded → Option α}
    (hkinded : f.saysKind = true) (hkind : "kind" ∉ others.map (·.1))
    (hrow : f.row (("kind", .text kind) :: others) =
      .kind :: (others.map (·.1)).map fun name => ⟨name, .value, none⟩)
    (h : ∀ k : Kinded, k.kind = .name kind →
      k.rest.fields? (others.map (·.1)) =
        (kindedData kind others).rest.fields? (others.map (·.1)) → make k = some x) :
    Finds (fun d => kinded? d >>= make) (.record f) (kindedObject kind others) x := by
  obtain ⟨hvalues, hothers⟩ := valuesOf_kind_cons kind hkind
  refine finds_kinded hkinded hvalues ?_
  intro ws hstands
  have hfields := fields?_of_values kind hstands (hrow ▸ List.subset_cons_self _ _) hkind
  rw [hothers] at hfields
  exact h _ rfl hfields

/-- A list that is left out is empty. -/
theorem reads_nil (read : View → Option α) : Reads (list? read) (.array []) [] := by
  intro levels hlevels
  obtain ⟨inner, rfl, -⟩ := height_array_le hlevels
  rfl

/-! ### What is written carries itself -/

/-- A record that has just the known members `Carries` itself when its members do. -/
theorem carries_self_record
    (h : List.Forall₂ (fun e m => e.1 = m.name ∧ Carries m.shape e.2 e.2) vs (f.row vs))
    (hdata : f.saysKind = true → ∀ e ∈ vs, e.2.HasData) :
    Carries (.record f) (.object vs) (.object vs) := by
  have hnames : vs.map (·.1) = (f.row vs).map (·.name) := by
    rw [← List.forall₂_eq_eq_eq, List.forall₂_map_left_iff, List.forall₂_map_right_iff]
    exact h.imp fun _ _ he => he.1
  have hnodup : (vs.map (·.1)).Nodup := hnames ▸ f.nodup_names vs
  refine carries_record.mpr ⟨vs, rfl, ?_, hdata⟩
  intro m hm
  obtain ⟨i, hi, rfl⟩ := List.getElem_of_mem hm
  obtain ⟨hlength, hall⟩ := List.forall₂_iff_get.mp h
  have hv : i < vs.length := by rwa [hlength]
  obtain ⟨hname, hcarries⟩ : vs[i].1 = (f.row vs)[i].name ∧
      Carries (f.row vs)[i].shape vs[i].2 vs[i].2 := hall i hv hi
  have hvalues : valuesOf (f.row vs)[i].name vs = [vs[i].2] := by
    rw [← hname]
    exact valuesOf_eq_singleton hnodup (List.getElem_mem hv)
  exact ⟨_, _, hvalues, hcarries, .inl hvalues⟩

theorem carries_self_list {α : Type} {write : α → Json} {xs : List α}
    (h : ∀ x ∈ xs, Carries (.record f) (write x) (write x)) :
    Carries (.list f) (.array (xs.map write)) (.array (xs.map write)) := by
  refine carries_list.mpr ⟨_, rfl, List.forall₂_same.mpr ?_⟩
  intro v hv
  obtain ⟨x, hx, rfl⟩ := List.mem_map.mp hv
  exact h x hx

/-- A record of a kind that has only members without records inside `Carries` itself. -/
theorem carries_self_values {kind : String} {others : List (String × Json)}
    (hrow : f.row (("kind", .text kind) :: others) =
      .kind :: (others.map (·.1)).map fun name => ⟨name, .value, none⟩)
    (hprint : (kindedObject kind others).IsPrintable) :
    Carries (.record f) (kindedObject kind others) (kindedObject kind others) := by
  refine carries_self_record ?_ fun _ e he => (isPrintable_object.mp hprint e he).hasData
  rw [hrow, List.map_map]
  refine .cons ⟨rfl, .value _⟩ (List.forall₂_map_right_iff.mpr (List.forall₂_same.mpr ?_))
  exact fun e _ => ⟨rfl, .value _⟩

end

end ConfigBinder
