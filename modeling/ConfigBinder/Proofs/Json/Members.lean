/-
Members of a record, wherever they stand.

A reader asks a record for the members of a fixed row of names.  What it gets depends on the
values of each of these names (`valuesOf`) and on nothing else: neither on the order of the
members nor on those with other names, so the `known` members are enough.  So too for the
members of data, whose names are first turned into places in the row, and for the kind that a
record says.
-/
import ConfigBinder.Document.Basic
import ConfigBinder.Proofs.Ordered

namespace ConfigBinder

/-- A list answers when each of its items does. -/
theorem mapM_eq_some_map {α γ : Type} {l : List α} {ask : α → Option γ} {answer : α → γ}
    (h : ∀ x ∈ l, ask x = some (answer x)) : l.mapM ask = some (l.map answer) := by
  induction l with
  | nil => rfl
  | cons x rest ih =>
      rw [List.mapM_cons, h x (by simp), ih fun y hy => h y (by simp [hy])]
      rfl

/-! ### The values of a name -/

/-- The values of the members with a name, in order. -/
def valuesOf {β : Type} (name : String) (members : List (String × β)) : List β :=
  (members.filter fun m => m.1 = name).map (·.2)

/-- The members whose names stand in a row. -/
def known {β : Type} (row : List String) (members : List (String × β)) : List (String × β) :=
  members.filter fun m => row.contains m.1

/-- The members with other names than that of the kind. -/
def besidesKind {β : Type} (members : List (String × β)) : List (String × β) :=
  members.filter fun m => m.1 ≠ "kind"

section

variable {β γ : Type} {name : String} {row : List String} {members members' : List (String × β)}

theorem valuesOf_cons_self (b : β) :
    valuesOf name ((name, b) :: members) = b :: valuesOf name members := by
  simp [valuesOf]

theorem valuesOf_cons_of_ne {k : String} (b : β) (h : k ≠ name) :
    valuesOf name ((k, b) :: members) = valuesOf name members := by
  simp [valuesOf, h]

theorem mem_valuesOf {b : β} : b ∈ valuesOf name members ↔ (name, b) ∈ members := by
  simp [valuesOf]

theorem valuesOf_eq_nil : valuesOf name members = [] ↔ ∀ m ∈ members, m.1 ≠ name := by
  simp [valuesOf]

theorem valuesOf_append :
    valuesOf name (members ++ members') = valuesOf name members ++ valuesOf name members' := by
  simp [valuesOf]

theorem valuesOf_map (f : β → γ) :
    valuesOf name (members.map fun m => (m.1, f m.2)) = (valuesOf name members).map f := by
  simp [valuesOf, List.filter_map, Function.comp_def]

theorem valuesOf_eq_singleton (h : (members.map (·.1)).Nodup) {m : String × β}
    (hm : m ∈ members) : valuesOf m.1 members = [m.2] := by
  rw [valuesOf, filter_eq_singleton_of_nodup h hm]
  rfl

private theorem lookup_eq_head?_valuesOf : members.lookup name = (valuesOf name members).head? := by
  induction members with
  | nil => rfl
  | cons m rest ih =>
      obtain ⟨k, b⟩ := m
      by_cases hk : k = name
      · subst hk
        rw [List.lookup_cons_self, valuesOf_cons_self, List.head?_cons]
      · rw [List.lookup_cons, beq_false_of_ne (Ne.symm hk), valuesOf_cons_of_ne b hk, ← ih]

/-! ### Members in another order, and one member more -/

private theorem valuesOf_perm (name : String) (h : members.Perm members') :
    (valuesOf name members).Perm (valuesOf name members') :=
  (h.filter _).map _

/-- The order of the members does not matter to the `valuesOf` a name that does not come twice. -/
theorem valuesOf_eq_of_perm (h : members.Perm members')
    (honce : (valuesOf name members').length ≤ 1) :
    valuesOf name members = valuesOf name members' := by
  have hperm := valuesOf_perm name h
  match hvalues : valuesOf name members', honce with
  | [], _ => exact List.perm_nil.mp (hvalues ▸ hperm)
  | [b], _ => exact List.perm_singleton.mp (hvalues ▸ hperm)

theorem mem_insert {before after : List (String × β)} {m e : String × β} :
    e ∈ before ++ m :: after ↔ e = m ∨ e ∈ before ++ after := by
  simp only [List.mem_append, List.mem_cons]
  exact or_left_comm

theorem valuesOf_insert_of_ne {k : String} {before after : List (String × β)} (b : β)
    (h : k ≠ name) :
    valuesOf name (before ++ (k, b) :: after) = valuesOf name (before ++ after) := by
  rw [valuesOf_append, valuesOf_append, valuesOf_cons_of_ne b h]

theorem valuesOf_insert_self {before after : List (String × β)} (b : β) :
    valuesOf name (before ++ (name, b) :: after) =
      valuesOf name before ++ b :: valuesOf name after := by
  rw [valuesOf_append, valuesOf_cons_self]

/-! ### Known members, and those besides the kind -/

theorem known_map (f : β → γ) :
    known row (members.map fun m => (m.1, f m.2)) =
      (known row members).map fun m => (m.1, f m.2) := by
  simp [known, List.filter_map, Function.comp_def]

/-- A record with no other names is `known` as a whole. -/
theorem known_eq_self (h : members.map (·.1) = row) : known row members = members := by
  refine List.filter_eq_self.mpr ?_
  intro m hm
  rw [List.contains_iff_mem, ← h]
  exact List.mem_map_of_mem hm

theorem valuesOf_known (h : name ∈ row) :
    valuesOf name (known row members) = valuesOf name members := by
  rw [valuesOf, known, List.filter_filter]
  refine congrArg (List.map _) (List.filter_congr ?_)
  intro m _
  by_cases hm : m.1 = name <;> simp [hm, h]

private theorem valuesOf_known_of_not_mem (h : name ∉ row) :
    valuesOf name (known row members) = [] := by
  rw [valuesOf, known, List.filter_filter, List.map_eq_nil_iff, List.filter_eq_nil_iff]
  rintro m - hm
  simp only [Bool.and_eq_true, decide_eq_true_eq, List.contains_iff_mem] at hm
  exact h (hm.1 ▸ hm.2)

/-- No `known` name comes twice just when each name of the row has one value at most. -/
theorem nodup_known_iff :
    ((known row members).map (·.1)).Nodup ↔ ∀ k ∈ row, (valuesOf k members).length ≤ 1 := by
  have hcount : ∀ k, List.count k ((known row members).map (·.1)) =
      (valuesOf k (known row members)).length := by
    intro k
    rw [valuesOf, List.length_map, List.count, List.countP_map, List.countP_eq_length_filter]
    rfl
  rw [List.nodup_iff_count_le_one]
  refine ⟨?_, ?_⟩
  · intro h k hk
    have hle := h k
    rwa [hcount, valuesOf_known hk] at hle
  · intro h k
    rw [hcount]
    by_cases hk : k ∈ row
    · rw [valuesOf_known hk]
      exact h k hk
    · rw [valuesOf_known_of_not_mem hk]
      exact Nat.zero_le 1

theorem besidesKind_cons_kind (b : β) :
    besidesKind (("kind", b) :: members) = besidesKind members := rfl

private theorem besidesKind_cons_of_ne {k : String} (b : β) (h : k ≠ "kind") :
    besidesKind ((k, b) :: members) = (k, b) :: besidesKind members := by
  simp [besidesKind, h]

theorem besidesKind_map (f : β → γ) :
    besidesKind (members.map fun m => (m.1, f m.2)) =
      (besidesKind members).map fun m => (m.1, f m.2) := by
  simp [besidesKind, List.filter_map, Function.comp_def]

theorem known_besidesKind (h : "kind" ∉ row) :
    known row (besidesKind members) = known row members := by
  rw [known, known, besidesKind, List.filter_filter]
  refine List.filter_congr ?_
  intro m _
  by_cases hm : m.1 = "kind" <;> simp [hm, h]

end

/-! ### Members that are asked for

Three readers look for members, each in its own way: by name, by place, and for the kind.  What
each of them finds is told by the values of the names.
-/

section

variable {β γ : Type} {row : List String} {members members' : List (String × β)}

theorem lookup_known (name : String) :
    (known row members).lookup name =
      if name ∈ row then (valuesOf name members).head? else none := by
  rw [lookup_eq_head?_valuesOf]
  by_cases h : name ∈ row
  · rw [if_pos h, valuesOf_known h]
  · rw [if_neg h, valuesOf_known_of_not_mem h, List.head?_nil]

/-- `fields?` finds the members of a record by name when no known name comes twice. -/
theorem Record.fields?_named (h : ∀ name ∈ row, (valuesOf name members).length ≤ 1) :
    Record.fields? row (.named members) = some fun name => (known row members).lookup name :=
  if_pos (nodup_known_iff.mpr h)

namespace Datum

private theorem lookup_place (name : String) (h : ∀ m ∈ members, m.1 ∈ row) :
    (members.map fun m => (row.idxOf m.1, m.2)).lookup (row.idxOf name) = members.lookup name := by
  induction members with
  | nil => rfl
  | cons m rest ih =>
      obtain ⟨k, b⟩ := m
      have hk : k ∈ row := h (k, b) List.mem_cons_self
      have hplace : (row.idxOf name == row.idxOf k) = (name == k) := by
        rw [Bool.eq_iff_iff, beq_iff_eq, beq_iff_eq, eq_comm, List.idxOf_inj hk, eq_comm]
      rw [List.map_cons, List.lookup_cons, List.lookup_cons, hplace,
        ih fun m hm => h m (List.mem_cons_of_mem _ hm)]

/-- So are those of data whose keys are texts. -/
theorem fields?_map {members : List (String × Datum)}
    (h : ∀ name ∈ row, (valuesOf name members).length ≤ 1) :
    fields? row (.map (members.map fun m => (.text m.1, m.2))) =
      some fun name => (known row members).lookup name := by
  have hplaced : (members.map fun m => (Datum.text m.1, m.2)).mapM
      (fun e => (keyPlace? row e.1).map (·, e.2)) =
        some (members.map fun m => (row.idxOf m.1, m.2)) := by
    rw [List.mapM_map]
    exact mapM_eq_some_map fun m _ => rfl
  have hknown : (members.map fun m => (row.idxOf m.1, m.2)).filter (·.1 < row.length) =
      (known row members).map fun m => (row.idxOf m.1, m.2) := by
    rw [List.filter_map, known]
    refine congrArg (List.map _) (List.filter_congr ?_)
    intro m _
    rw [Function.comp_apply, Bool.eq_iff_iff, decide_eq_true_eq, List.contains_iff_mem,
      List.idxOf_lt_length_iff]
  have hmem : ∀ m ∈ known row members, m.1 ∈ row := fun m hm =>
    List.contains_iff_mem.mp (List.mem_filter.mp hm).2
  have hnodup : (((known row members).map fun m => (row.idxOf m.1, m.2)).map (·.1)).Nodup := by
    have hnames := nodup_known_iff.mpr h
    rw [List.map_map]
    refine List.Nodup.map_on ?_ (List.Nodup.of_map _ hnames)
    intro m hm m' hm' hplace
    have hname : m.1 = m'.1 := (List.idxOf_inj (hmem m hm)).mp hplace
    exact List.inj_on_of_nodup_map hnames hm hm' hname
  rw [fields?]
  simp only [hplaced, hknown, if_pos hnodup]
  refine congrArg some (funext fun name => ?_)
  exact lookup_place name hmem

private theorem splitKind_cons {d : β} {others : List (Datum × β)}
    (h : ∀ e ∈ others, e.1.text? ≠ some "kind") :
    splitKind ((.text "kind", d) :: others) = some (d, others) := by
  have hnone : (others.any fun e => decide (e.1.text? = some "kind")) = false := by
    rw [List.any_eq_false]
    intro e he
    simpa using h e he
  rw [splitKind, hnone]
  rfl

/-- `splitKind` finds the kind wherever it stands, and leaves the others in their order. -/
theorem splitKind_map {b : β} (h : valuesOf "kind" members = [b]) :
    splitKind (members.map fun m => (.text m.1, m.2)) =
      some (b, (besidesKind members).map fun m => (.text m.1, m.2)) := by
  induction members with
  | nil => exact nomatch h
  | cons m rest ih =>
      obtain ⟨k, x⟩ := m
      by_cases hk : k = "kind"
      · subst hk
        rw [valuesOf_cons_self] at h
        obtain ⟨rfl, hrest⟩ := List.cons.inj h
        have hothers : ∀ m ∈ rest, m.1 ≠ "kind" := valuesOf_eq_nil.mp hrest
        have hrests : besidesKind rest = rest :=
          List.filter_eq_self.mpr fun m hm => decide_eq_true (hothers m hm)
        rw [besidesKind_cons_kind, hrests]
        refine splitKind_cons ?_
        intro e he hname
        obtain ⟨m, hm, rfl⟩ := List.mem_map.mp he
        exact hothers m hm (Option.some.inj hname)
      · rw [valuesOf_cons_of_ne x hk] at h
        rw [besidesKind_cons_of_ne x hk, List.map_cons, splitKind, ih h]
        · rfl
        · intro d heq
          exact hk (Datum.text.inj (Prod.mk.inj heq).1)

end Datum

end

end ConfigBinder
