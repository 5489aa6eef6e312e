/-
Maps whose entries are listed by ascending key.

The order is part of the value: the keys ascend strictly, so two maps with the
same look-ups are the same map, and listing one needs no sorting.  Writing to a
key that is there replaces its value.
-/

namespace ConfigBinder

/-- A finite map, listed by strictly ascending key. -/
structure OrderedMap (κ β : Type) [Ord κ] where
  /-- The keys with their values. -/
  entries : List (κ × β)
  /-- Each key is below every later one. -/
  ascending : entries.Pairwise fun a b => compare a.1 b.1 = .lt
  deriving DecidableEq

namespace OrderedMap

variable {κ β : Type} [Ord κ]

/-- The map without entries. -/
def empty : OrderedMap κ β := ⟨[], .nil⟩

instance : EmptyCollection (OrderedMap κ β) := ⟨empty⟩

instance : Inhabited (OrderedMap κ β) := ⟨empty⟩

def size (m : OrderedMap κ β) : Nat := m.entries.length

def isEmpty (m : OrderedMap κ β) : Bool := m.entries.isEmpty

def keys (m : OrderedMap κ β) : List κ := m.entries.map (·.1)

/-- The value that a list of entries holds first for a key. -/
def look (k : κ) : List (κ × β) → Option β
  | [] => none
  | (k', v) :: rest => if compare k k' = .eq then some v else look k rest

/-- The value at a key. -/
def get? (m : OrderedMap κ β) (k : κ) : Option β := look k m.entries

@[simp] theorem get?_empty (k : κ) : (empty : OrderedMap κ β).get? k = none := rfl

/-- The map without a key. -/
def erase (m : OrderedMap κ β) (k : κ) : OrderedMap κ β :=
  ⟨m.entries.filter fun e => compare k e.1 ≠ .eq, m.ascending.filter _⟩

/-- Puts an entry at its place, instead of the one with an equal key. -/
def put (k : κ) (v : β) : List (κ × β) → List (κ × β)
  | [] => [(k, v)]
  | (k', v') :: rest =>
    match compare k k' with
    | .lt => (k, v) :: (k', v') :: rest
    | .eq => (k, v) :: rest
    | .gt => (k', v') :: put k v rest

theorem mem_put {k : κ} {v : β} {e : κ × β} :
    ∀ {l : List (κ × β)}, e ∈ put k v l → e = (k, v) ∨ e ∈ l
  | [], h => by simpa [put] using h
  | (k', v') :: rest, h => by
    rw [put] at h
    split at h
    · simpa using h
    · rcases List.mem_cons.mp h with h | h
      · exact Or.inl h
      · exact Or.inr (List.mem_cons_of_mem _ h)
    · rcases List.mem_cons.mp h with h | h
      · exact Or.inr (h ▸ List.mem_cons_self)
      · rcases mem_put h with h | h
        · exact Or.inl h
        · exact Or.inr (List.mem_cons_of_mem _ h)

variable [Std.TransOrd κ] [Std.LawfulEqOrd κ]

theorem put_ascending {k : κ} {v : β} : ∀ {l : List (κ × β)},
    l.Pairwise (fun a b => compare a.1 b.1 = .lt) →
    (put k v l).Pairwise fun a b => compare a.1 b.1 = .lt
  | [], _ => by simp [put]
  | (k', v') :: rest, h => by
    obtain ⟨hhead, hrest⟩ := List.pairwise_cons.mp h
    rw [put]
    split
    · rename_i hlt
      refine List.pairwise_cons.mpr ⟨fun e he => ?_, h⟩
      rcases List.mem_cons.mp he with rfl | he
      · exact hlt
      · exact Std.TransCmp.lt_trans hlt (hhead e he)
    · rename_i heq
      obtain rfl := Std.LawfulEqOrd.eq_of_compare heq
      exact List.pairwise_cons.mpr ⟨hhead, hrest⟩
    · rename_i hgt
      refine List.pairwise_cons.mpr ⟨fun e he => ?_, put_ascending hrest⟩
      rcases mem_put he with rfl | he
      · exact Std.OrientedCmp.gt_iff_lt.mp hgt
      · exact hhead e he

/-- The map with the value at a key set. -/
def insert (m : OrderedMap κ β) (k : κ) (v : β) : OrderedMap κ β :=
  ⟨put k v m.entries, put_ascending m.ascending⟩

/-- The map of a list of entries; of two with one key the later counts. -/
def ofList (l : List (κ × β)) : OrderedMap κ β :=
  l.foldl (fun m e => m.insert e.1 e.2) empty

/-! ### A map is known by its look-ups -/

theorem look_put (k x : κ) (v : β) : ∀ l : List (κ × β),
    look x (put k v l) = if compare x k = .eq then some v else look x l
  | [] => by simp [put, look]
  | (k', v') :: rest => by
    rw [put]
    split
    · simp [look]
    · rename_i heq
      obtain rfl := Std.LawfulEqOrd.eq_of_compare heq
      by_cases hx : compare x k = .eq <;> simp [look, hx]
    · rename_i hgt
      by_cases hx : compare x k' = .eq
      · obtain rfl := Std.LawfulEqOrd.eq_of_compare hx
        have hlt : compare x k = .lt := Std.OrientedCmp.gt_iff_lt.mp hgt
        simp [look, hlt]
      · simp [look, hx, look_put k x v rest]

/-- After a write the key holds what was written and the others what they held. -/
theorem get?_insert (m : OrderedMap κ β) (k x : κ) (v : β) :
    (m.insert k v).get? x = if compare x k = .eq then some v else m.get? x :=
  look_put k x v m.entries

omit [Std.TransOrd κ] in
theorem look_filter (k x : κ) : ∀ l : List (κ × β),
    look x (l.filter fun e => compare k e.1 ≠ .eq) =
      if compare k x = .eq then none else look x l
  | [] => by simp [look]
  | (k', v') :: rest => by
    have ih := look_filter k x rest
    by_cases hk : compare k k' = .eq
    · obtain rfl := Std.LawfulEqOrd.eq_of_compare hk
      by_cases hx : compare x k = .eq
      · obtain rfl := Std.LawfulEqOrd.eq_of_compare hx
        simpa using ih
      · have hx' : compare k x ≠ .eq := fun h => hx (Std.LawfulEqOrd.eq_of_compare h ▸ hk)
        simpa [look, hx, hx'] using ih
    · by_cases hx : compare x k' = .eq
      · obtain rfl := Std.LawfulEqOrd.eq_of_compare hx
        simp [look, hk]
      · simpa [look, hk, hx] using ih

omit [Std.TransOrd κ] in
/-- Without a key the other keys hold what they held. -/
theorem get?_erase (m : OrderedMap κ β) (k x : κ) :
    (m.erase k).get? x = if compare k x = .eq then none else m.get? x :=
  look_filter k x m.entries

end OrderedMap

end ConfigBinder
