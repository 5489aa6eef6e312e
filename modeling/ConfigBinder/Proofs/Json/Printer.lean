/-
What is printed is read back.

Both printers write a spelling of the value: the compact one without white space, the
indented one with a line start in front of each item and each member.  So both texts are
read as the value, and the printers need no more than `Spells` of the reader.
-/
import ConfigBinder.Json.Printer
import ConfigBinder.Proofs.Json.Spelling

namespace ConfigBinder.Json

/-! ### Printable values -/

mutual
/-- Whether the value has a spelling: its numbers are integers that 64 bits hold, and
nothing in it is flawed. -/
def IsPrintable : Json → Prop
  | .int n => IsWhole n
  | .real _ => False
  | .flawed => False
  | .array items => PrintableItems items
  | .object members => PrintableMembers members
  | _ => True
def PrintableItems : List Json → Prop
  | [] => True
  | v :: rest => v.IsPrintable ∧ PrintableItems rest
def PrintableMembers : List (String × Json) → Prop
  | [] => True
  | (_, v) :: rest => v.IsPrintable ∧ PrintableMembers rest
end

@[simp] theorem isPrintable_null : IsPrintable .null := trivial

@[simp] theorem isPrintable_bool (b : Bool) : IsPrintable (.bool b) := trivial

@[simp] theorem isPrintable_text (s : String) : IsPrintable (.text s) := trivial

theorem isPrintable_nat {n : Nat} (h : n < Nat.pow 2 64) : IsPrintable (.nat n) := by
  show IsWhole n
  exact ⟨by omega, by exact_mod_cast h⟩

@[simp] theorem isPrintable_array {items : List Json} :
    IsPrintable (.array items) ↔ ∀ v ∈ items, v.IsPrintable := by
  show PrintableItems items ↔ _
  induction items with
  | nil => simp [PrintableItems]
  | cons v rest ih => simp [PrintableItems, ih]

@[simp] theorem isPrintable_object {members : List (String × Json)} :
    IsPrintable (.object members) ↔ ∀ m ∈ members, m.2.IsPrintable := by
  show PrintableMembers members ↔ _
  induction members with
  | nil => simp [PrintableMembers]
  | cons m rest ih =>
      obtain ⟨k, v⟩ := m
      rw [PrintableMembers, ih]
      simp only [List.forall_mem_cons]

/-- A map `IsPrintable` when its values are. -/
theorem isPrintable_map {α : Type} (write : α → Json) {entries : List (String × α)}
    (h : ∀ e ∈ entries, (write e.2).IsPrintable) :
    IsPrintable (.object (entries.map fun e => (e.1, write e.2))) := by
  refine isPrintable_object.mpr ?_
  intro m hm
  obtain ⟨e, he, rfl⟩ := List.mem_map.mp hm
  exact h e he

/-! ### Spellings that are printed

The value, the items of an array and the members of an object are printed by three functions that
call one another, so each printer has three theorems in one block.
-/

private theorem isGap_nil : IsGap [] := fun _ hc => nomatch hc

private theorem isGap_space : IsGap [' '] := by
  intro c hc
  rw [List.mem_singleton.mp hc]
  rfl

private theorem isGap_lineStart (level : Nat) : IsGap (lineStart level) := by
  intro c hc
  rcases List.mem_cons.mp hc with rfl | hc
  · rfl
  · rw [(List.mem_replicate.mp hc).2]
    rfl

mutual
/-- The indented form `Spells` its value. -/
theorem spells_prettyChars : ∀ (v : Json) (level : Nat), v.IsPrintable →
    Spells v (prettyChars level v)
  | .null, _, _ => .nullWord
  | .bool true, _, _ => .trueWord
  | .bool false, _, _ => .falseWord
  | .int _, _, h => .int h
  | .text s, _, _ => .text s
  | .array [], _, _ => .emptyArray isGap_nil
  | .array (v :: rest), level, h => by
      have hitems := spellsItems_prettyItems (v :: rest) (level + 1) (List.cons_ne_nil _ _)
        (isPrintable_array.mp h) (isGap_lineStart level)
      have harray := Spells.array hitems
      rw [← List.append_assoc] at harray
      exact harray
  | .object [], _, _ => .emptyObject isGap_nil
  | .object (m :: rest), level, h => by
      have hmembers := spellsMembers_prettyMembers (m :: rest) (level + 1) (List.cons_ne_nil _ _)
        (isPrintable_object.mp h) (isGap_lineStart level)
      have hobject := Spells.object hmembers
      rw [← List.append_assoc] at hobject
      exact hobject
theorem spellsItems_prettyItems : ∀ (items : List Json) (level : Nat), items ≠ [] →
    (∀ v ∈ items, v.IsPrintable) → ∀ {gap : List Char}, IsGap gap →
      SpellsItems items (prettyItems level items ++ (gap ++ [']']))
  | [], _, hne, _, _, _ => absurd rfl hne
  | [v], level, _, h, _, hgap => by
      have hv := spells_prettyChars v level (h v (by simp))
      rw [prettyItems, List.append_assoc]
      exact .last (isGap_lineStart level) hv hgap
  | v :: w :: rest, level, _, h, _, hgap => by
      have hv := spells_prettyChars v level (h v (by simp))
      have htail := spellsItems_prettyItems (w :: rest) level (List.cons_ne_nil _ _)
        (fun x hx => h x (List.mem_cons_of_mem _ hx)) hgap
      rw [prettyItems, List.append_assoc, List.append_assoc, List.cons_append]
      exact .more (isGap_lineStart level) hv isGap_nil htail
theorem spellsMembers_prettyMembers : ∀ (members : List (String × Json)) (level : Nat),
    members ≠ [] → (∀ m ∈ members, m.2.IsPrintable) → ∀ {gap : List Char}, IsGap gap →
      SpellsMembers members (prettyMembers level members ++ (gap ++ ['}']))
  | [], _, hne, _, _, _ => absurd rfl hne
  | [(k, v)], level, _, h, _, hgap => by
      have hv := spells_prettyChars v level (h (k, v) (by simp))
      have hmember := SpellsMembers.last (k := k) (isGap_lineStart level) isGap_nil isGap_space
        hv hgap
      simpa only [prettyMembers, List.append_assoc, List.cons_append, List.nil_append]
        using hmember
  | (k, v) :: m :: rest, level, _, h, _, hgap => by
      have hv := spells_prettyChars v level (h (k, v) (by simp))
      have htail := spellsMembers_prettyMembers (m :: rest) level (List.cons_ne_nil _ _)
        (fun x hx => h x (List.mem_cons_of_mem _ hx)) hgap
      have hmembers := SpellsMembers.more (k := k) (isGap_lineStart level) isGap_nil isGap_space
        hv isGap_nil htail
      simpa only [prettyMembers, List.append_assoc, List.cons_append, List.nil_append]
        using hmembers
end

/-- **Indented text is read back as the value that was printed.** -/
theorem parse?_pretty {v : Json} (h : v.IsPrintable) : parse? v.pretty = some v := by
  have hread := parse?_of_spells isGap_nil (spells_prettyChars v 0 h) isGap_nil
  rwa [List.nil_append, List.append_nil] at hread

mutual
/-- The compact form `Spells` its value. -/
theorem spells_compactChars : ∀ v : Json, v.IsPrintable → Spells v (compactChars v)
  | .null, _ => .nullWord
  | .bool true, _ => .trueWord
  | .bool false, _ => .falseWord
  | .int _, h => .int h
  | .text s, _ => .text s
  | .array [], _ => .emptyArray isGap_nil
  | .array (v :: rest), h =>
      .array (spellsItems_compactItems (v :: rest) (List.cons_ne_nil _ _) (isPrintable_array.mp h))
  | .object [], _ => .emptyObject isGap_nil
  | .object (m :: rest), h =>
      .object (spellsMembers_compactMembers (m :: rest) (List.cons_ne_nil _ _)
        (isPrintable_object.mp h))
theorem spellsItems_compactItems : ∀ items : List Json, items ≠ [] →
    (∀ v ∈ items, v.IsPrintable) → SpellsItems items (compactItems items ++ [']'])
  | [], hne, _ => absurd rfl hne
  | [v], _, h => by
      have hv := spells_compactChars v (h v (by simp))
      exact .last isGap_nil hv isGap_nil
  | v :: w :: rest, _, h => by
      have hv := spells_compactChars v (h v (by simp))
      have htail := spellsItems_compactItems (w :: rest) (List.cons_ne_nil _ _)
        fun x hx => h x (List.mem_cons_of_mem _ hx)
      rw [compactItems, List.append_assoc]
      exact .more isGap_nil hv isGap_nil htail
theorem spellsMembers_compactMembers : ∀ members : List (String × Json), members ≠ [] →
    (∀ m ∈ members, m.2.IsPrintable) → SpellsMembers members (compactMembers members ++ ['}'])
  | [], hne, _ => absurd rfl hne
  | [(k, v)], _, h => by
      have hv := spells_compactChars v (h (k, v) (by simp))
      have hmember := SpellsMembers.last (k := k) isGap_nil isGap_nil isGap_nil hv isGap_nil
      simpa only [compactMembers, List.append_assoc, List.cons_append, List.nil_append]
        using hmember
  | (k, v) :: m :: rest, _, h => by
      have hv := spells_compactChars v (h (k, v) (by simp))
      have htail := spellsMembers_compactMembers (m :: rest) (List.cons_ne_nil _ _)
        fun x hx => h x (List.mem_cons_of_mem _ hx)
      have hmembers := SpellsMembers.more (k := k) isGap_nil isGap_nil isGap_nil hv isGap_nil
        htail
      simpa only [compactMembers, List.append_assoc, List.cons_append, List.nil_append]
        using hmembers
end

/-- **Compact text is read back as the value that was printed.** -/
theorem parse?_compact {v : Json} (h : v.IsPrintable) : parse? v.compact = some v := by
  have hread := parse?_of_spells isGap_nil (spells_compactChars v h) isGap_nil
  rwa [List.nil_append, List.append_nil] at hread

/-- Values with one compact text are the same value. -/
theorem compact_inj {v w : Json} (hv : v.IsPrintable) (hw : w.IsPrintable) :
    v.compact = w.compact ↔ v = w := by
  refine ⟨?_, ?_⟩
  · intro h
    have hread := parse?_compact hv
    rw [h, parse?_compact hw] at hread
    exact (Option.some.inj hread).symm
  · intro h
    rw [h]

end ConfigBinder.Json
