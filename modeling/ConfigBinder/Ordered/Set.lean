/-
Sets whose members are listed in ascending order, each once.
-/

namespace ConfigBinder

/-- A finite set, listed in strictly ascending order. -/
structure OrderedSet (α : Type) [Ord α] where
  /-- The members. -/
  members : List α
  /-- Each member is below every later one. -/
  ascending : members.Pairwise fun a b => compare a b = .lt
  deriving DecidableEq

namespace OrderedSet

variable {α : Type} [Ord α]

/-- The set without members. -/
def empty : OrderedSet α := ⟨[], .nil⟩

instance : EmptyCollection (OrderedSet α) := ⟨empty⟩

instance : Inhabited (OrderedSet α) := ⟨empty⟩

instance : Membership α (OrderedSet α) := ⟨fun s a => a ∈ s.members⟩

instance [DecidableEq α] (a : α) (s : OrderedSet α) : Decidable (a ∈ s) :=
  inferInstanceAs (Decidable (a ∈ s.members))

def size (s : OrderedSet α) : Nat := s.members.length

/-- Puts a value at its place, unless it is there. -/
def put (a : α) : List α → List α
  | [] => [a]
  | b :: rest =>
    match compare a b with
    | .lt => a :: b :: rest
    | .eq => b :: rest
    | .gt => b :: put a rest

theorem mem_put [Std.LawfulEqOrd α] {a x : α} : ∀ {l : List α}, x ∈ put a l ↔ x = a ∨ x ∈ l
  | [] => by simp [put]
  | b :: rest => by
    rw [put]
    split
    · simp
    · rename_i heq
      obtain rfl := Std.LawfulEqOrd.eq_of_compare heq
      simp
    · simp only [List.mem_cons, mem_put (l := rest)]
      constructor
      · rintro (h | h | h) <;> simp [h]
      · rintro (h | h | h) <;> simp [h]

variable [Std.TransOrd α] [Std.LawfulEqOrd α]

theorem put_ascending {a : α} : ∀ {l : List α},
    l.Pairwise (fun a b => compare a b = .lt) → (put a l).Pairwise fun a b => compare a b = .lt
  | [], _ => by simp [put]
  | b :: rest, h => by
    obtain ⟨hhead, hrest⟩ := List.pairwise_cons.mp h
    rw [put]
    split
    · rename_i hlt
      refine List.pairwise_cons.mpr ⟨fun x hx => ?_, h⟩
      rcases List.mem_cons.mp hx with rfl | hx
      · exact hlt
      · exact Std.TransCmp.lt_trans hlt (hhead x hx)
    · exact h
    · rename_i hgt
      refine List.pairwise_cons.mpr ⟨fun x hx => ?_, put_ascending hrest⟩
      rcases mem_put.mp hx with rfl | hx
      · exact Std.OrientedCmp.gt_iff_lt.mp hgt
      · exact hhead x hx

/-- The set with one more member. -/
def insert (s : OrderedSet α) (a : α) : OrderedSet α :=
  ⟨put a s.members, put_ascending s.ascending⟩

/-- The set of the values of a list. -/
def ofList (l : List α) : OrderedSet α := l.foldl insert empty

/-! ### What an insertion adds -/

/-- A set with one more member holds that one and those it held. -/
theorem mem_insert {s : OrderedSet α} {a x : α} :
    x ∈ s.insert a ↔ x = a ∨ x ∈ s :=
  mem_put

end OrderedSet

end ConfigBinder
