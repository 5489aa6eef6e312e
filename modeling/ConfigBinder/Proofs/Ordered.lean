/-
Ordered sets and maps, seen from their members.

A set holds what was put into it and a map what was written last.  Neither remembers
anything else: the set of a set's own members is that set (`ofList_members`), and the map of a
map's own entries is that map (`ofList_entries`).  Both are the same argument about a list that
ascends.  What is put behind members that are all below it goes to the end, so putting the
members one after another spells the list again.
-/
import ConfigBinder.Ordered.Map
import ConfigBinder.Ordered.Set
import Mathlib.Data.List.Sort

namespace ConfigBinder

/-! ### Lists told apart by a key -/

/-- Where the keys differ, the key of a member is found at that member only. -/
theorem filter_eq_singleton_of_nodup {α β : Type} [DecidableEq β] {f : α → β} {l : List α}
    (h : (l.map f).Nodup) {a : α} (ha : a ∈ l) : l.filter (fun x => f x = f a) = [a] := by
  induction l with
  | nil => exact nomatch ha
  | cons x rest ih =>
      obtain ⟨hx, hrest⟩ := List.nodup_cons.mp h
      rcases List.mem_cons.mp ha with rfl | ha
      · have hnone : rest.filter (fun x => f x = f a) = [] := by
          refine List.filter_eq_nil_iff.mpr ?_
          intro y hy
          have hne : f y ≠ f a := fun heq => hx (heq ▸ List.mem_map_of_mem hy)
          simpa using hne
        rw [List.filter_cons_of_pos (by simp), hnone]
      · have hne : f x ≠ f a := fun heq => hx (heq ▸ List.mem_map_of_mem ha)
        rw [List.filter_cons_of_neg (by simpa using hne), ih hrest ha]

/-! ### Sets -/

namespace OrderedSet

variable {α : Type} [Ord α]

theorem ext_members {s t : OrderedSet α} (h : s.members = t.members) : s = t := by
  cases s
  cases t
  simpa using h

private theorem put_eq_append [Std.OrientedOrd α] {a : α} {l : List α}
    (h : ∀ b ∈ l, compare b a = .lt) : put a l = l ++ [a] := by
  induction l with
  | nil => rfl
  | cons b rest ih =>
      have hb : compare a b = .gt := Std.OrientedCmp.gt_of_lt (h b (by simp))
      simp only [put, hb, List.cons_append]
      rw [ih fun c hc => h c (by simp [hc])]

variable [Std.TransOrd α] [Std.LawfulEqOrd α]

private theorem mem_foldl_insert (l : List α) :
    ∀ {s : OrderedSet α} {x : α}, x ∈ l.foldl insert s ↔ x ∈ s ∨ x ∈ l := by
  induction l with
  | nil => intro s x; simp
  | cons a rest ih =>
      intro s x
      rw [List.foldl_cons, ih, mem_insert, List.mem_cons]
      refine ⟨?_, ?_⟩
      · intro h
        rcases h with (h | h) | h
        all_goals simp [h]
      · intro h
        rcases h with h | h | h
        all_goals simp [h]

/-- `ofList` makes a set that holds the values of the list. -/
theorem mem_ofList {l : List α} {x : α} : x ∈ ofList l ↔ x ∈ l := by
  rw [ofList, mem_foldl_insert]
  refine ⟨?_, ?_⟩
  · intro h
    rcases h with h | h
    · exact nomatch h
    · exact h
  · exact Or.inr

private theorem members_foldl_insert (l : List α) :
    ∀ s : OrderedSet α, (s.members ++ l).Pairwise (fun a b => compare a b = .lt) →
      (l.foldl insert s).members = s.members ++ l := by
  induction l with
  | nil => intro s _; simp
  | cons a rest ih =>
      intro s h
      have hs : (s.insert a).members = s.members ++ [a] :=
        put_eq_append fun b hb => (List.pairwise_append.mp h).2.2 b hb a (by simp)
      rw [List.foldl_cons, ih, hs, List.append_assoc, List.singleton_append]
      rwa [hs, List.append_assoc, List.singleton_append]

/-- The set of a set's own members is that set. -/
theorem ofList_members (s : OrderedSet α) : ofList s.members = s :=
  ext_members (members_foldl_insert s.members empty s.ascending)

/-- Two sets with the same members are the same set. -/
theorem ext_mem {s t : OrderedSet α} (h : ∀ a, a ∈ s ↔ a ∈ t) : s = t := by
  have hirrefl : Std.Irrefl fun a b : α => compare a b = .lt := by
    refine ⟨fun a hlt => ?_⟩
    simp at hlt
  have hantisymm : Std.Antisymm fun a b : α => compare a b = .lt := by
    refine ⟨fun a b hab hba => ?_⟩
    rw [Std.OrientedCmp.gt_of_lt hba] at hab
    exact nomatch hab
  exact ext_members (s.ascending.eq_of_mem_iff t.ascending h)

end OrderedSet

/-! ### Maps -/

namespace OrderedMap

variable {κ β : Type} [Ord κ]

theorem ext_entries {m n : OrderedMap κ β} (h : m.entries = n.entries) : m = n := by
  cases m
  cases n
  simpa using h

private theorem put_eq_append [Std.OrientedOrd κ] {k : κ} {v : β} {l : List (κ × β)}
    (h : ∀ e ∈ l, compare e.1 k = .lt) : put k v l = l ++ [(k, v)] := by
  induction l with
  | nil => rfl
  | cons e rest ih =>
      have he : compare k e.1 = .gt := Std.OrientedCmp.gt_of_lt (h e (by simp))
      simp only [put, he, List.cons_append]
      rw [ih fun c hc => h c (by simp [hc])]

variable [Std.LawfulEqOrd κ]

theorem look_eq_some_iff {k : κ} {v : β} {l : List (κ × β)}
    (h : l.Pairwise fun a b => compare a.1 b.1 = .lt) : look k l = some v ↔ (k, v) ∈ l := by
  induction l with
  | nil => simp [look]
  | cons e rest ih =>
      obtain ⟨hhead, hrest⟩ := List.pairwise_cons.mp h
      by_cases hk : compare k e.1 = .eq
      · obtain rfl := Std.LawfulEqOrd.eq_of_compare hk
        have hnot : (e.1, v) ∉ rest := fun hmem => by
          have hlt := hhead _ hmem
          simp at hlt
        simp only [look, hk, if_true, Option.some.injEq, List.mem_cons, hnot, or_false]
        refine ⟨?_, ?_⟩
        · intro heq
          subst heq
          rfl
        · intro heq; rw [← heq]
      · have hne : (k, v) ≠ e := fun heq => hk (by rw [← heq]; exact Std.ReflCmp.compare_self)
        simp only [look, hk, if_false, List.mem_cons, hne, false_or]
        exact ih hrest

/-- The entries of a map are its look-ups. -/
theorem mem_entries_iff {m : OrderedMap κ β} {k : κ} {v : β} :
    (k, v) ∈ m.entries ↔ m.get? k = some v :=
  (look_eq_some_iff m.ascending).symm

/-- The `keys` of a map are those that hold a value. -/
theorem mem_keys_iff {m : OrderedMap κ β} {k : κ} : k ∈ m.keys ↔ ∃ v, m.get? k = some v := by
  simp only [keys, List.mem_map, Prod.exists, exists_and_right, exists_eq_right, mem_entries_iff]

variable [Std.TransOrd κ]

theorem get?_insert_self (m : OrderedMap κ β) (k : κ) (v : β) :
    (m.insert k v).get? k = some v := by
  rw [get?_insert, if_pos Std.ReflCmp.compare_self]

theorem get?_insert_of_ne (m : OrderedMap κ β) {k x : κ} (v : β) (h : x ≠ k) :
    (m.insert k v).get? x = m.get? x := by
  rw [get?_insert, if_neg fun hc => h (Std.LawfulEqOrd.eq_of_compare hc)]

private theorem entries_foldl_insert (l : List (κ × β)) :
    ∀ m : OrderedMap κ β, (m.entries ++ l).Pairwise (fun a b => compare a.1 b.1 = .lt) →
      (l.foldl (fun m e => m.insert e.1 e.2) m).entries = m.entries ++ l := by
  induction l with
  | nil => intro m _; simp
  | cons e rest ih =>
      intro m h
      have hm : (m.insert e.1 e.2).entries = m.entries ++ [e] :=
        put_eq_append fun b hb => (List.pairwise_append.mp h).2.2 b hb e (by simp)
      rw [List.foldl_cons, ih, hm, List.append_assoc, List.singleton_append]
      rwa [hm, List.append_assoc, List.singleton_append]

/-- The map of a map's own entries is that map. -/
theorem ofList_entries (m : OrderedMap κ β) : ofList m.entries = m :=
  ext_entries (entries_foldl_insert m.entries empty m.ascending)

/-- Two maps with the same look-ups are the same map. -/
theorem ext_get? {m n : OrderedMap κ β} (h : ∀ k, m.get? k = n.get? k) : m = n := by
  have hirrefl : Std.Irrefl fun a b : κ × β => compare a.1 b.1 = .lt := by
    refine ⟨fun a hlt => ?_⟩
    simp at hlt
  have hantisymm : Std.Antisymm fun a b : κ × β => compare a.1 b.1 = .lt := by
    refine ⟨fun a b hab hba => ?_⟩
    rw [Std.OrientedCmp.gt_of_lt hba] at hab
    exact nomatch hab
  refine ext_entries (m.ascending.eq_of_mem_iff n.ascending ?_)
  intro e
  rw [mem_entries_iff, mem_entries_iff, h]

end OrderedMap

end ConfigBinder
