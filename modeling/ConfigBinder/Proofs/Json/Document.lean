/-
Reading values as documents.

A reader `Reads` a thing in a value when it gives that thing wherever the value stands with
levels enough for its own arrays and objects.  Readers of lists, maps and records find
what they are put together from, so what a writer puts into a value its reader finds
there, part by part.

A record that says its kind is first read ahead as data, and its members are taken out of
the data.  Every printable value that fits its levels has its data, `asDatum`.
-/
import ConfigBinder.Json.Document
import ConfigBinder.Proofs.Json.Members
import ConfigBinder.Proofs.Json.Printer

namespace ConfigBinder

namespace Json

/-! ### Heights -/

private theorem heightOfItems_le {items : List Json} {n : Nat} :
    heightOfItems items ≤ n ↔ ∀ v ∈ items, v.height ≤ n := by
  induction items with
  | nil => simp [heightOfItems]
  | cons v rest ih =>
      rw [heightOfItems, Nat.max_le, ih]
      simp only [List.forall_mem_cons]

private theorem heightOfMembers_le {members : List (String × Json)} {n : Nat} :
    heightOfMembers members ≤ n ↔ ∀ m ∈ members, m.2.height ≤ n := by
  induction members with
  | nil => simp [heightOfMembers]
  | cons m rest ih =>
      obtain ⟨k, v⟩ := m
      rw [heightOfMembers, Nat.max_le, ih]
      simp only [List.forall_mem_cons]

/-- An array has a `height` that fits when a level can open and its items fit inside. -/
theorem height_array_le {items : List Json} {levels : Nat}
    (h : (Json.array items).height ≤ levels) :
    ∃ inner, levels = inner + 1 ∧ ∀ v ∈ items, v.height ≤ inner := by
  rw [height] at h
  cases levels with
  | zero => omega
  | succ inner => exact ⟨inner, rfl, heightOfItems_le.mp (by omega)⟩

/-- An object has a `height` that fits when a level can open and its members fit inside. -/
theorem height_object_le {members : List (String × Json)} {levels : Nat}
    (h : (Json.object members).height ≤ levels) :
    ∃ inner, levels = inner + 1 ∧ ∀ m ∈ members, m.2.height ≤ inner := by
  rw [height] at h
  cases levels with
  | zero => omega
  | succ inner => exact ⟨inner, rfl, heightOfMembers_le.mp (by omega)⟩

end Json

namespace Json

open Document

/-! ### Lists of answers -/

/-- What is written item by item is read item by item. -/
theorem mapM_map_eq_some {α β : Type} {l : List α} {write : α → β} {read : β → Option α}
    (h : ∀ x ∈ l, read (write x) = some x) : (l.map write).mapM read = some l := by
  have hall : l.mapM (read ∘ write) = some (l.map id) := mapM_eq_some_map h
  rw [List.mapM_map, List.map_id] at *
  exact hall

private theorem lookup_map_snd {β γ : Type} (f : β → γ) (l : List (String × β)) (k : String) :
    (l.map fun e => (e.1, f e.2)).lookup k = (l.lookup k).map f := by
  induction l with
  | nil => rfl
  | cons e rest ih =>
      obtain ⟨k', b⟩ := e
      rw [List.map_cons, List.lookup_cons, List.lookup_cons, ih]
      cases k == k' <;> rfl

/-! ### Readers that find what was written

A view carries the levels that may still open.  `Reads` asks for no more of them than the height
of the value, so it holds of a value inside another one as it does of the value alone.
-/

/-- The reader finds the thing in the value, wherever the value may stand. -/
def Reads {α : Type} (read : View → Option α) (v : Json) (x : α) : Prop :=
  ∀ levels, v.height ≤ levels → read ⟨v, levels⟩ = some x

variable {α : Type} {read : View → Option α} {write : α → Json}

theorem reads_text (s : String) : Reads text? (.text s) s := fun _ _ => rfl

theorem reads_natural (n : Nat) : Reads natural? (.nat n) n := by
  intro levels _
  show (if (0 : Int) ≤ n then some (n : Int).toNat else none) = some n
  rw [if_pos (Int.natCast_nonneg n), Int.toNat_natCast]

theorem reads_flag (b : Bool) : Reads flag? (.bool b) b := fun _ _ => rfl

private theorem optional?_of_ne_null {value : Json} {levels : Nat} (h : value ≠ .null) :
    Document.optional? (⟨value, levels⟩ : View) = some (some (⟨value, levels⟩ : View)) := by
  cases value with
  | null => exact absurd rfl h
  | _ => rfl

/-- What may be left empty is found by `option?` when it was written, and when it was left empty;
what is written must not look like nothing. -/
theorem reads_option {x : Option α} (hwrite : ∀ y ∈ x, write y ≠ .null)
    (h : ∀ y ∈ x, Reads read (write y) y) :
    Reads (option? read) ((x.map write).getD .null) x := by
  intro levels hlevels
  cases x with
  | none => rfl
  | some y =>
      show (Document.optional? (⟨write y, levels⟩ : View)).bind _ = _
      rw [optional?_of_ne_null (hwrite y rfl)]
      show (read ⟨write y, levels⟩).bind (fun z => some (some z)) = some (some y)
      rw [h y rfl levels hlevels]
      rfl

theorem reads_none : Reads (option? read) .null none := fun _ _ => rfl

/-- `list?` finds a list when each of its items is found. -/
theorem reads_list {xs : List α} (h : ∀ x ∈ xs, Reads read (write x) x) :
    Reads (list? read) (.array (xs.map write)) xs := by
  intro levels hlevels
  obtain ⟨inner, rfl, hitems⟩ := height_array_le hlevels
  show ((xs.map write).map fun v => (⟨v, inner⟩ : View)).mapM read = some xs
  rw [List.map_map]
  refine mapM_map_eq_some ?_
  intro x hx
  exact h x hx inner (hitems _ (List.mem_map.mpr ⟨x, hx, rfl⟩))

/-- `map?` finds a map when each of its values is found. -/
theorem reads_map (write : α → Json) {entries : List (String × α)}
    (h : ∀ e ∈ entries, Reads read (write e.2) e.2) :
    Reads (map? read) (.object (entries.map fun e => (e.1, write e.2))) entries := by
  intro levels hlevels
  obtain ⟨inner, rfl, hmembers⟩ := height_object_le hlevels
  show ((entries.map fun e => (e.1, write e.2)).map fun m => (m.1, (⟨m.2, inner⟩ : View))).mapM
    (fun m => (read m.2).bind fun x => some (m.1, x)) = some entries
  rw [List.map_map]
  refine mapM_map_eq_some ?_
  intro e he
  show ((read ⟨write e.2, inner⟩).bind fun x => some (e.1, x)) = some e
  rw [h e he inner (hmembers _ (List.mem_map.mpr ⟨e, he, rfl⟩))]
  rfl

/-! ### Records

A record is read by the names of its members, and each name that is written stands there once.
-/

/-- The member of a name as a document. -/
def member? (members : List (String × Json)) (levels : Nat) (name : String) : Option View :=
  (members.lookup name).map (⟨·, levels⟩)

/-- `fields?` finds the known members of a record wherever they stand, when none comes twice. -/
theorem fields?_object {members : List (String × Json)} {row : List String}
    (h : ∀ name ∈ row, (valuesOf name members).length ≤ 1) (levels : Nat) :
    fields? row (⟨.object members, levels + 1⟩ : View) =
      some (member? (known row members) levels) := by
  have hviews : ∀ name ∈ row,
      (valuesOf name (members.map fun m => (m.1, (⟨m.2, levels⟩ : View)))).length ≤ 1 := by
    intro name hname
    rw [valuesOf_map fun v => (⟨v, levels⟩ : View), List.length_map]
    exact h name hname
  show Record.fields? row (.named (members.map fun m => (m.1, (⟨m.2, levels⟩ : View)))) = _
  rw [Record.fields?_named hviews, known_map fun v => (⟨v, levels⟩ : View)]
  refine congrArg some (funext fun name => ?_)
  exact lookup_map_snd (fun v => (⟨v, levels⟩ : View)) (known row members) name

/-- What a record is made from is found when the record was written. -/
theorem reads_record {members : List (String × Json)} {row : List String}
    {build : (String → Option View) → Option α} {x : α} (hrow : members.map (·.1) = row)
    (hnodup : row.Nodup)
    (h : ∀ levels, (∀ m ∈ members, m.2.height ≤ levels) →
      build (member? members levels) = some x) :
    Reads (fun d => fields? row d >>= build) (.object members) x := by
  intro levels hlevels
  obtain ⟨inner, rfl, hmembers⟩ := height_object_le hlevels
  have hknown : known row members = members := known_eq_self hrow
  have honce : ∀ name ∈ row, (valuesOf name members).length ≤ 1 := by
    rw [← nodup_known_iff, hknown, hrow]
    exact hnodup
  show Option.bind (fields? row (⟨.object members, inner + 1⟩ : View)) build = some x
  rw [fields?_object honce, hknown]
  exact h inner hmembers

/-- A member that must be there is found when it was written. -/
theorem Reads.member {v : Json} {x : α} (h : Reads read v x) (name : String)
    {members : List (String × Json)} (hlook : members.lookup name = some v) {levels : Nat}
    (hlevels : ∀ m ∈ members, m.2.height ≤ levels) :
    required read (member? members levels name) = some x := by
  obtain ⟨before, after, hmembers, -⟩ := List.lookup_eq_some_iff.mp hlook
  have hmem : (name, v) ∈ members := by
    rw [hmembers]
    exact List.mem_append_right _ List.mem_cons_self
  rw [member?, hlook]
  exact h levels (hlevels _ hmem)

/-- What is made of the thing is found where the reader `Reads` the thing. -/
theorem Reads.map {β : Type} {v : Json} {x : α} (f : α → β) (h : Reads read v x) :
    Reads (fun d => f <$> read d) v (f x) := by
  intro levels hlevels
  show (read ⟨v, levels⟩).map f = some (f x)
  rw [h levels hlevels]
  rfl

/-! ### Data

Data is the value with all of its text decoded, so only a value without flaw has any.  `HasData`
is that condition, and a value that can be printed meets it.
-/

mutual
/-- The data that a printable value holds. -/
def asDatum : Json → Datum
  | .bool b => .bool b
  | .int (.ofNat n) => .natural n
  | .int (.negSucc n) => .negative (n + 1)
  | .real _ => .real
  | .text s => .text s
  | .array items => .list (asData items)
  | .object members => .map (asEntries members)
  | _ => .null
def asData : List Json → List Datum
  | [] => []
  | v :: rest => v.asDatum :: asData rest
def asEntries : List (String × Json) → List (Datum × Datum)
  | [] => []
  | (k, v) :: rest => (.text k, v.asDatum) :: asEntries rest
end

theorem asData_eq_map (items : List Json) : asData items = items.map asDatum := by
  induction items with
  | nil => rfl
  | cons v rest ih => rw [asData, ih, List.map_cons]

theorem asEntries_eq_map (members : List (String × Json)) :
    asEntries members = members.map fun m => (Datum.text m.1, m.2.asDatum) := by
  induction members with
  | nil => rfl
  | cons m rest ih =>
      obtain ⟨k, v⟩ := m
      rw [asEntries, ih, List.map_cons]

mutual
/-- Whether nothing in the value is flawed, so that it can be kept as data. -/
def HasData : Json → Prop
  | .flawed => False
  | .array items => ItemsHaveData items
  | .object members => MembersHaveData members
  | _ => True
def ItemsHaveData : List Json → Prop
  | [] => True
  | v :: rest => v.HasData ∧ ItemsHaveData rest
def MembersHaveData : List (String × Json) → Prop
  | [] => True
  | (_, v) :: rest => v.HasData ∧ MembersHaveData rest
end

theorem hasData_array {items : List Json} : HasData (.array items) ↔ ∀ v ∈ items, v.HasData := by
  show ItemsHaveData items ↔ _
  induction items with
  | nil => simp [ItemsHaveData]
  | cons v rest ih => simp [ItemsHaveData, ih]

theorem hasData_object {members : List (String × Json)} :
    HasData (.object members) ↔ ∀ m ∈ members, m.2.HasData := by
  show MembersHaveData members ↔ _
  induction members with
  | nil => simp [MembersHaveData]
  | cons m rest ih =>
      obtain ⟨k, v⟩ := m
      rw [MembersHaveData, ih]
      simp only [List.forall_mem_cons]

mutual
theorem IsPrintable.hasData : ∀ {v : Json}, v.IsPrintable → v.HasData
  | .null, _ | .bool _, _ | .int _, _ | .text _, _ => trivial
  | .array items, h => printableItems_haveData items h
  | .object members, h => printableMembers_haveData members h
private theorem printableItems_haveData : ∀ items : List Json,
    PrintableItems items → ItemsHaveData items
  | [], _ => trivial
  | _ :: rest, h => ⟨h.1.hasData, printableItems_haveData rest h.2⟩
private theorem printableMembers_haveData : ∀ members : List (String × Json),
    PrintableMembers members → MembersHaveData members
  | [], _ => trivial
  | (_, _) :: rest, h => ⟨h.1.hasData, printableMembers_haveData rest h.2⟩
end

/-- A value that `HasData` and fits its levels is read ahead as its `asDatum`. -/
theorem datum?_eq_some (levels : Nat) :
    ∀ v : Json, v.HasData → v.height ≤ levels → datum? levels v = some v.asDatum := by
  induction levels with
  | zero =>
      intro v hdata hheight
      cases v with
      | array items => simp [height] at hheight
      | object members => simp [height] at hheight
      | int n => cases n <;> rfl
      | flawed => exact absurd hdata id
      | null | bool b | real spelling | text s => rfl
  | succ levels ih =>
      intro v hdata hheight
      cases v with
      | array items =>
          obtain ⟨inner, hinner, hitems⟩ := height_array_le hheight
          obtain rfl : levels = inner := by omega
          have hall := mapM_eq_some_map fun w hw =>
            ih w (hasData_array.mp hdata w hw) (hitems w hw)
          show (items.mapM (datum? levels)).map Datum.list = some (.list (asData items))
          rw [hall, asData_eq_map]
          rfl
      | object members =>
          obtain ⟨inner, hinner, hmembers⟩ := height_object_le hheight
          obtain rfl : levels = inner := by omega
          have hall : members.mapM (fun m => (datum? levels m.2).map (Datum.text m.1, ·)) =
              some (members.map fun m => (Datum.text m.1, m.2.asDatum)) := by
            refine mapM_eq_some_map ?_
            intro m hm
            rw [ih m.2 (hasData_object.mp hdata m hm) (hmembers m hm)]
            rfl
          show (members.mapM fun m => (datum? levels m.2).map (Datum.text m.1, ·)).map Datum.map =
            some (.map (asEntries members))
          rw [hall, asEntries_eq_map]
          rfl
      | int n => cases n <;> rfl
      | flawed => exact absurd hdata id
      | null | bool b | real spelling | text s => rfl

/-! ### Records that say their kind -/

/-- A record of a kind with its other members. -/
def kindedObject (kind : String) (others : List (String × Json)) : Json :=
  .object (("kind", .text kind) :: others)

/-- The data of the members behind the kind (`asDatum`), with what names the kind. -/
def kindedData (kind : String) (others : List (String × Json)) : Kinded :=
  ⟨.name kind, .map (asEntries others)⟩

/-- The kind and the other members of a record are read ahead, wherever the kind stands. -/
theorem reads_kinded {kind : String} {members : List (String × Json)}
    (hkind : valuesOf "kind" members = [.text kind]) (hdata : ∀ m ∈ members, m.2.HasData) :
    Reads kinded? (.object members) (kindedData kind (besidesKind members)) := by
  intro levels hlevels
  obtain ⟨inner, rfl, hmembers⟩ := height_object_le hlevels
  have hothers : ((besidesKind members).map fun m => (Datum.text m.1, m.2)).mapM
      (fun e => (datum? inner e.2).map (e.1, ·)) = some (asEntries (besidesKind members)) := by
    rw [List.mapM_map, asEntries_eq_map]
    refine mapM_eq_some_map ?_
    intro m hm
    have hmem : m ∈ members := List.mem_of_mem_filter hm
    have hdatum := datum?_eq_some inner m.2 (hdata m hmem) (hmembers m hmem)
    simp [hdatum]
  show (Datum.splitKind _).bind _ = _
  rw [Datum.splitKind_map hkind]
  show (((besidesKind members).map fun m => (Datum.text m.1, m.2)).mapM
    (fun e => (datum? inner e.2).map (e.1, ·))).bind
      (fun es => some (⟨.name kind, .map es⟩ : Kinded)) = _
  rw [hothers]
  rfl

/-- What is made of the kind and the other members is found in the record. -/
theorem reads_of_kind {kind : String} {members : List (String × Json)}
    {make : Kinded → Option α} {x : α} (hkind : valuesOf "kind" members = [.text kind])
    (hdata : ∀ m ∈ members, m.2.HasData)
    (h : make (kindedData kind (besidesKind members)) = some x) :
    Reads (fun d => kinded? d >>= make) (.object members) x := by
  intro levels hlevels
  show Option.bind (kinded? (⟨.object members, levels⟩ : View)) make = some x
  rw [reads_kinded hkind hdata levels hlevels]
  exact h

/-- In `asDatum` too the kind is found wherever it stands. -/
theorem kinded?_asDatum {kind : String} {members : List (String × Json)}
    (hkind : valuesOf "kind" members = [.text kind]) :
    (Json.object members).asDatum.kinded? = some (kindedData kind (besidesKind members)) := by
  have hdata : valuesOf "kind" (members.map fun m => (m.1, m.2.asDatum)) = [.text kind] := by
    rw [valuesOf_map, hkind]
    rfl
  have hothers : besidesKind (members.map fun m => (m.1, m.2.asDatum)) =
      (besidesKind members).map fun m => (m.1, m.2.asDatum) := besidesKind_map asDatum
  have hsplit := Datum.splitKind_map hdata
  rw [hothers, List.map_map, List.map_map] at hsplit
  show (Datum.splitKind (asEntries members)).bind _ = _
  rw [asEntries_eq_map, kindedData, asEntries_eq_map]
  exact congrArg (Option.bind · _) hsplit

/-- `fields?` finds the members that a kind asks for in the data behind it, when none comes
twice. -/
theorem fields?_kindedData {kind : String} {row : List String} {members : List (String × Json)}
    (hkind : "kind" ∉ row) (h : ∀ name ∈ row, (valuesOf name members).length ≤ 1) :
    (kindedData kind (besidesKind members)).rest.fields? row =
      some fun name => ((known row members).lookup name).map asDatum := by
  have hknown : known row ((besidesKind members).map fun m => (m.1, m.2.asDatum)) =
      (known row members).map fun m => (m.1, m.2.asDatum) := by
    rw [known_map asDatum, known_besidesKind hkind]
  have honce : ((known row ((besidesKind members).map fun m => (m.1, m.2.asDatum))).map
      (·.1)).Nodup := by
    rw [hknown, List.map_map]
    exact nodup_known_iff.mpr h
  have hfields := Datum.fields?_map (nodup_known_iff.mp honce)
  rw [hknown, List.map_map] at hfields
  rw [kindedData, asEntries_eq_map]
  refine hfields.trans (congrArg some (funext fun name => ?_))
  exact lookup_map_snd asDatum (known row members) name

/-- A record that was written has its kind in front and nowhere else. -/
theorem valuesOf_kind_cons (kind : String) {others : List (String × Json)}
    (h : "kind" ∉ others.map (·.1)) :
    valuesOf "kind" (("kind", .text kind) :: others) = [.text kind] ∧
      besidesKind (("kind", .text kind) :: others) = others := by
  have hne : ∀ m ∈ others, m.1 ≠ "kind" := by
    intro m hm hname
    exact h (hname ▸ List.mem_map_of_mem hm)
  rw [valuesOf_cons_self, besidesKind_cons_kind]
  refine ⟨congrArg (_ :: ·) (valuesOf_eq_nil.mpr hne), ?_⟩
  exact List.filter_eq_self.mpr fun m hm => decide_eq_true (hne m hm)

/-- What is made of the kind and the members is found when the record was written. -/
theorem reads_of_kinded {kind : String} {others : List (String × Json)}
    {make : Kinded → Option α} {x : α} (hkind : "kind" ∉ others.map (·.1))
    (hprint : (kindedObject kind others).IsPrintable)
    (h : make (kindedData kind others) = some x) :
    Reads (fun d => kinded? d >>= make) (kindedObject kind others) x := by
  obtain ⟨hvalues, hothers⟩ := valuesOf_kind_cons kind hkind
  refine reads_of_kind hvalues ?_ ?_
  · intro m hm
    exact (isPrintable_object.mp hprint m hm).hasData
  · rwa [hothers]

end Json

end ConfigBinder
