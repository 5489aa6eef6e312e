/-
What spells a value is read as that value.

A value has many spellings, which differ in the white space between their parts: `Spells`
relates the characters to the value.  The reader takes a spelling off the front of a text,
whatever follows, as long as what follows does not go on with a number.  Inside an array or an
object that is always so: behind a value stands white space, a comma or a closing bracket.

The fuel of the reader is spent twice for each bracket or comma at most, so twice the
length of a spelling is enough.
-/
import ConfigBinder.Json.Parser
import ConfigBinder.Proofs.Json.Number
import ConfigBinder.Proofs.Json.Quoted

namespace ConfigBinder.Json

/-! ### Spellings -/

/-- Nothing but white space. -/
def IsGap (cs : List Char) : Prop := ∀ c ∈ cs, isSpace c = true

mutual
/-- The characters spell the value, without white space around it. -/
inductive Spells : Json → List Char → Prop
  | nullWord : Spells .null ['n', 'u', 'l', 'l']
  | trueWord : Spells (.bool true) ['t', 'r', 'u', 'e']
  | falseWord : Spells (.bool false) ['f', 'a', 'l', 's', 'e']
  | int {n : Int} (h : IsWhole n) : Spells (.int n) (intChars n)
  | text (s : String) : Spells (.text s) (Quoted.write s.toList)
  | emptyArray {gap : List Char} (hgap : IsGap gap) : Spells (.array []) ('[' :: (gap ++ [']']))
  | array {items : List Json} {cs : List Char} (h : SpellsItems items cs) :
      Spells (.array items) ('[' :: cs)
  | emptyObject {gap : List Char} (hgap : IsGap gap) : Spells (.object []) ('{' :: (gap ++ ['}']))
  | object {members : List (String × Json)} {cs : List Char} (h : SpellsMembers members cs) :
      Spells (.object members) ('{' :: cs)
/-- The characters spell the items of an array, of which there is one at least, and its
closing bracket. -/
inductive SpellsItems : List Json → List Char → Prop
  | last {v : Json} {before cs after : List Char} (hbefore : IsGap before) (h : Spells v cs)
      (hafter : IsGap after) : SpellsItems [v] (before ++ (cs ++ (after ++ [']'])))
  | more {v w : Json} {rest : List Json} {before cs after tail : List Char}
      (hbefore : IsGap before) (h : Spells v cs) (hafter : IsGap after)
      (htail : SpellsItems (w :: rest) tail) :
      SpellsItems (v :: w :: rest) (before ++ (cs ++ (after ++ ',' :: tail)))
/-- The characters spell the members of an object, of which there is one at least, and
its closing bracket. -/
inductive SpellsMembers : List (String × Json) → List Char → Prop
  | last {k : String} {v : Json} {before colon value cs after : List Char}
      (hbefore : IsGap before) (hcolon : IsGap colon) (hvalue : IsGap value) (h : Spells v cs)
      (hafter : IsGap after) :
      SpellsMembers [(k, v)]
        (before ++ (Quoted.write k.toList ++ (colon ++ ':' :: (value ++ (cs ++ (after ++ ['}']))))))
  | more {k : String} {v : Json} {m : String × Json} {rest : List (String × Json)}
      {before colon value cs after tail : List Char} (hbefore : IsGap before)
      (hcolon : IsGap colon) (hvalue : IsGap value) (h : Spells v cs) (hafter : IsGap after)
      (htail : SpellsMembers (m :: rest) tail) :
      SpellsMembers ((k, v) :: m :: rest)
        (before ++ (Quoted.write k.toList ++
          (colon ++ ':' :: (value ++ (cs ++ (after ++ ',' :: tail))))))
end

/-! ### White space

The reader skips white space in front of each part, and a spelling allows it in the same places.
So wherever a reader is about to look, the gap in front of it can be dropped.
-/

private theorem skipSpace_append {gap : List Char} (h : IsGap gap) (cs : List Char) :
    skipSpace (gap ++ cs) = skipSpace cs := List.dropWhile_append_of_pos h

private theorem skipSpace_cons {c : Char} (h : isSpace c = false) (cs : List Char) :
    skipSpace (c :: cs) = c :: cs := List.dropWhile_cons_of_neg (by simp [h])

private theorem skipSpace_skipSpace (cs : List Char) : skipSpace (skipSpace cs) = skipSpace cs := by
  induction cs with
  | nil => rfl
  | cons c cs ih =>
      unfold skipSpace at ih ⊢
      rw [List.dropWhile_cons]
      split
      · exact ih
      · rename_i hc
        rw [List.dropWhile_cons_of_neg hc]

private theorem stops_of_gap {gap rest : List Char} (hgap : IsGap gap) (h : Number.Stops rest) :
    Number.Stops (gap ++ rest) := by
  cases gap with
  | nil => exact h
  | cons c gap =>
      refine Number.stops_cons ?_
      have hc := hgap c (by simp)
      simp only [isSpace, Bool.or_eq_true, decide_eq_true_eq] at hc
      rcases hc with ((rfl | rfl) | rfl) | rfl
      all_goals decide

/-- `readValue` passes over white space first. -/
theorem readValue_skipSpace (fuel : Nat) (cs : List Char) :
    readValue fuel (skipSpace cs) = readValue fuel cs := by
  cases fuel with
  | zero => rfl
  | succ fuel =>
      rw [readValue.eq_def, readValue.eq_def]
      simp only [skipSpace_skipSpace]

private theorem readValue_append {gap : List Char} (h : IsGap gap) (fuel : Nat) (cs : List Char) :
    readValue fuel (gap ++ cs) = readValue fuel cs := by
  rw [← readValue_skipSpace, skipSpace_append h, readValue_skipSpace]

private theorem readItems_skipSpace (fuel : Nat) (cs : List Char) :
    readItems fuel (skipSpace cs) = readItems fuel cs := by
  cases fuel with
  | zero => rfl
  | succ fuel =>
      rw [readItems, readItems, readValue_skipSpace]

private theorem memberName?_skipSpace (cs : List Char) :
    memberName? (skipSpace cs) = memberName? cs := by
  unfold memberName?
  rw [skipSpace_skipSpace]

private theorem readMembers_skipSpace (fuel : Nat) (cs : List Char) :
    readMembers fuel (skipSpace cs) = readMembers fuel cs := by
  cases fuel with
  | zero => rfl
  | succ fuel =>
      rw [readMembers, readMembers, memberName?_skipSpace]

/-! ### What a spelling starts with

The reader tells by one character whether an array or an object is empty, and whether another item
follows.  What it has to know is that no spelling starts with that character.
-/

private theorem isSpace_of_isDigit {c : Char} (h : c.isDigit = true) : isSpace c = false := by
  have hne : ∀ d : Char, d.isDigit = false → c ≠ d := by
    intro d hd hc
    rw [hc, hd] at h
    exact Bool.noConfusion h
  simp [isSpace, hne ' ' rfl, hne '\n' rfl, hne '\t' rfl, hne '\r' rfl]

/-- An integer starts with a digit or a minus sign. -/
theorem intChars_eq_cons (n : Int) :
    ∃ c tail, intChars n = c :: tail ∧ (c = '-' ∨ c.isDigit = true) := by
  unfold intChars
  by_cases hneg : n < 0
  · rw [if_pos hneg]
    exact ⟨_, _, rfl, Or.inl rfl⟩
  · rw [if_neg hneg]
    cases hds : Decimal.digits n.natAbs with
    | nil => exact absurd hds (Decimal.digits_ne_nil _)
    | cons d ds =>
        have hmem : d ∈ Decimal.digits n.natAbs := by rw [hds]; exact List.mem_cons_self
        exact ⟨d, ds, rfl, Or.inr (Decimal.isDigit_of_mem_digits _ d hmem)⟩

/-- A spelling starts with neither white space nor the bracket that closes an array. -/
theorem Spells.eq_cons {v : Json} {cs : List Char} (h : Spells v cs) :
    ∃ c tail, cs = c :: tail ∧ isSpace c = false ∧ c ≠ ']' := by
  cases h with
  | int hn =>
      obtain ⟨c, tail, hcs, hc⟩ := intChars_eq_cons _
      refine ⟨c, tail, hcs, ?_⟩
      rcases hc with rfl | hdigit
      · exact ⟨by decide, by decide⟩
      · refine ⟨isSpace_of_isDigit hdigit, ?_⟩
        intro hc
        rw [hc] at hdigit
        exact absurd hdigit (by decide)
  | nullWord | trueWord | falseWord | text | emptyArray | array | emptyObject | object =>
      exact ⟨_, _, rfl, by decide, by decide⟩

theorem Spells.skipSpace_append {v : Json} {cs : List Char} (h : Spells v cs) (rest : List Char) :
    skipSpace (cs ++ rest) = cs ++ rest := by
  obtain ⟨c, tail, rfl, hc, -⟩ := h.eq_cons
  exact skipSpace_cons hc _

theorem Spells.length_pos {v : Json} {cs : List Char} (h : Spells v cs) : 0 < cs.length := by
  obtain ⟨c, tail, rfl, -⟩ := h.eq_cons
  exact Nat.succ_pos _

/-- The items of an array do not start with its closing bracket. -/
theorem SpellsItems.skipSpace_append {items : List Json} {cs : List Char}
    (h : SpellsItems items cs) (rest : List Char) :
    ∃ c tail, skipSpace (cs ++ rest) = c :: tail ∧ c ≠ ']' := by
  cases h with
  | last hbefore hv hafter | more hbefore hv hafter htail =>
      rw [List.append_assoc, Json.skipSpace_append hbefore, List.append_assoc,
        hv.skipSpace_append]
      obtain ⟨c, tail, rfl, -, hc⟩ := hv.eq_cons
      exact ⟨c, _, rfl, hc⟩

private theorem skipSpace_write (cs rest : List Char) :
    skipSpace (Quoted.write cs ++ rest) = '"' :: (cs.flatMap Quoted.escape ++ '"' :: rest) := by
  rw [Quoted.write, List.cons_append, List.cons_append, skipSpace_cons rfl,
    List.append_assoc]
  rfl

/-- The members of an object start with a name. -/
theorem SpellsMembers.skipSpace_append {members : List (String × Json)} {cs : List Char}
    (h : SpellsMembers members cs) (rest : List Char) :
    ∃ tail, skipSpace (cs ++ rest) = '"' :: tail := by
  cases h with
  | last hbefore hcolon hvalue hv hafter | more hbefore hcolon hvalue hv hafter htail =>
      rw [List.append_assoc, Json.skipSpace_append hbefore, List.append_assoc, skipSpace_write]
      exact ⟨_, rfl⟩

/-- `memberName?` reads a name with its colon. -/
theorem memberName?_write {before colon : List Char} (hbefore : IsGap before)
    (hcolon : IsGap colon) (k : String) (rest : List Char) :
    memberName? (before ++ (Quoted.write k.toList ++ (colon ++ ':' :: rest))) =
      some (some k, rest) := by
  unfold memberName?
  rw [Json.skipSpace_append hbefore, skipSpace_write]
  simp only [Quoted.read_flatMap_escape]
  rw [Json.skipSpace_append hcolon, skipSpace_cons rfl]
  simp only [String.ofList_toList]

private theorem ofMembers_some (members : List (String × Json)) :
    ofMembers (members.map fun m => (some m.1, m.2)) = .object members := by
  have hall : (members.map fun m => (some m.1, m.2)).mapM
      (fun m : Option String × Json => m.1.map (·, m.2)) = some members := by
    induction members with
    | nil => rfl
    | cons m rest ih =>
        rw [List.map_cons, List.mapM_cons, ih]
        rfl
  unfold ofMembers
  simp only [hall]

/-! ### Reading -/

theorem readValue_number {c : Char} (h : c = '-' ∨ c.isDigit = true) (fuel : Nat)
    (tail : List Char) : readValue (fuel + 1) (c :: tail) = Number.read (c :: tail) := by
  have hspace : isSpace c = false := by
    rcases h with rfl | hdigit
    · decide
    · exact isSpace_of_isDigit hdigit
  have hne : ∀ d : Char, d ≠ '-' → d.isDigit = false → c ≠ d := by
    intro d hminus hd hc
    rcases h with rfl | hdigit
    · exact hminus hc.symm
    · rw [hc, hd] at hdigit
      exact Bool.noConfusion hdigit
  rw [readValue.eq_def]
  simp only [skipSpace_cons hspace]
  split
  all_goals first
    | rfl
    | (rename_i heq; exact absurd (List.cons.inj heq).1 (hne _ (by decide) (by decide)))

section

variable {fuel : Nat} {cs body after tail rest : List Char}

private theorem readValue_of_items {items : List Json} {c : Char} (hcs : skipSpace cs = '[' :: body)
    (hbody : skipSpace body = c :: tail) (hc : c ≠ ']')
    (h : readItems fuel body = some (items, rest)) :
    readValue (fuel + 1) cs = some (.array items, rest) := by
  rw [← readItems_skipSpace, hbody] at h
  rw [readValue.eq_def]
  simp only [hcs, hbody]
  split
  · rename_i heq
    exact absurd (List.cons.inj heq).1 hc
  · rw [h]
    rfl

private theorem readItems_of_last {v : Json} (hvalue : readValue fuel cs = some (v, after))
    (hafter : skipSpace after = ']' :: rest) : readItems (fuel + 1) cs = some ([v], rest) := by
  rw [readItems.eq_def]
  simp only [hvalue, hafter]

private theorem readItems_of_more {v : Json} {items : List Json}
    (hvalue : readValue fuel cs = some (v, after)) (hafter : skipSpace after = ',' :: tail)
    (h : readItems fuel tail = some (items, rest)) :
    readItems (fuel + 1) cs = some (v :: items, rest) := by
  rw [readItems.eq_def]
  simp only [hvalue, hafter, h]
  rfl

private theorem readValue_of_members {members : List (String × Json)}
    (hcs : skipSpace cs = '{' :: body) (hbody : skipSpace body = '"' :: tail)
    (h : readMembers fuel body = some (members.map fun m => (some m.1, m.2), rest)) :
    readValue (fuel + 1) cs = some (.object members, rest) := by
  rw [← readMembers_skipSpace, hbody] at h
  rw [readValue.eq_def]
  simp only [hcs, hbody]
  show (readMembers fuel ('"' :: tail)).map (fun x => (ofMembers x.1, x.2)) = _
  rw [h, Option.map_some, ofMembers_some]

private theorem readMembers_of_last {name : Option String} {v : Json}
    (hname : memberName? cs = some (name, body)) (hvalue : readValue fuel body = some (v, after))
    (hafter : skipSpace after = '}' :: rest) :
    readMembers (fuel + 1) cs = some ([(name, v)], rest) := by
  rw [readMembers.eq_def]
  simp only [hname, hvalue, hafter]

private theorem readMembers_of_more {name : Option String} {v : Json}
    {members : List (Option String × Json)} (hname : memberName? cs = some (name, body))
    (hvalue : readValue fuel body = some (v, after)) (hafter : skipSpace after = ',' :: tail)
    (h : readMembers fuel tail = some (members, rest)) :
    readMembers (fuel + 1) cs = some ((name, v) :: members, rest) := by
  rw [readMembers.eq_def]
  simp only [hname, hvalue, hafter, h]
  rfl

end

/-- Behind the gap after a value a character is met that no number goes on with. -/
theorem skipSpace_separator {gap : List Char} (hgap : IsGap gap) {c : Char}
    (hc : isSpace c = false) (rest : List Char) : skipSpace (gap ++ c :: rest) = c :: rest := by
  rw [skipSpace_append hgap, skipSpace_cons hc]

mutual
/-- **A spelling is read as its value**, whatever follows that does not go on with a
number. -/
theorem readValue_of_spells : ∀ (v : Json) {cs rest : List Char} {fuel : Nat}, Spells v cs →
    Number.Stops rest → 2 * cs.length ≤ fuel → readValue fuel (cs ++ rest) = some (v, rest)
  | v, cs, rest, 0, h, _, hfuel => by
      have hpos := h.length_pos
      omega
  | .null, _, _, _ + 1, .nullWord, _, _ => rfl
  | .bool _, _, _, _ + 1, .trueWord, _, _ => rfl
  | .bool _, _, _, _ + 1, .falseWord, _, _ => rfl
  | .int n, _, rest, fuel + 1, .int hn, hstops, _ => by
      have hread := Number.read_intChars hstops hn
      obtain ⟨c, tail, hcs, hc⟩ := intChars_eq_cons n
      rw [hcs] at hread ⊢
      rw [List.cons_append, readValue_number hc]
      exact hread
  | .text s, _, rest, fuel + 1, .text _, _, _ => by
      rw [readValue.eq_def]
      simp only [skipSpace_write, Quoted.read_flatMap_escape]
      simp [ofQuoted]
  | .array _, _, rest, fuel + 1, .emptyArray hgap, _, _ => by
      rw [readValue, List.cons_append, skipSpace_cons rfl]
      simp only [List.append_assoc, skipSpace_append hgap]
      rfl
  | .array items, _, rest, fuel + 1, .array h, _, hfuel => by
      rw [List.length_cons] at hfuel
      obtain ⟨c, tail, hbody, hc⟩ := h.skipSpace_append rest
      exact readValue_of_items (skipSpace_cons rfl _) hbody hc
        (readItems_of_spells items h (by omega))
  | .object _, _, rest, fuel + 1, .emptyObject hgap, _, _ => by
      rw [readValue, List.cons_append, skipSpace_cons rfl]
      simp only [List.append_assoc, skipSpace_append hgap]
      rfl
  | .object members, _, rest, fuel + 1, .object h, _, hfuel => by
      rw [List.length_cons] at hfuel
      obtain ⟨tail, hbody⟩ := h.skipSpace_append rest
      exact readValue_of_members (skipSpace_cons rfl _) hbody
        (readMembers_of_spells members h (by omega))
/-- The items of an array are read up to its closing bracket. -/
theorem readItems_of_spells : ∀ (items : List Json) {cs rest : List Char} {fuel : Nat},
    SpellsItems items cs → 2 * cs.length + 1 ≤ fuel →
      readItems fuel (cs ++ rest) = some (items, rest)
  | [], _, _, _, h, _ => nomatch h
  | v :: items, _, rest, 0, _, hfuel => by omega
  | [v], _, rest, fuel + 1, .last hbefore hv hafter, hfuel => by
      simp only [List.length_append, List.length_cons] at hfuel
      simp only [List.append_assoc, List.cons_append, List.nil_append]
      refine readItems_of_last ?_ (skipSpace_separator hafter rfl rest)
      rw [readValue_append hbefore]
      exact readValue_of_spells v hv (stops_of_gap hafter (Number.stops_cons rfl))
        (by omega)
  | v :: w :: items, _, rest, fuel + 1, .more hbefore hv hafter htail, hfuel => by
      simp only [List.length_append, List.length_cons] at hfuel
      simp only [List.append_assoc, List.cons_append]
      refine readItems_of_more ?_ (skipSpace_separator hafter rfl _)
        (readItems_of_spells (w :: items) htail (by omega))
      rw [readValue_append hbefore]
      exact readValue_of_spells v hv (stops_of_gap hafter (Number.stops_cons rfl))
        (by omega)
/-- The members of an object are read up to its closing bracket. -/
theorem readMembers_of_spells : ∀ (members : List (String × Json)) {cs rest : List Char}
    {fuel : Nat}, SpellsMembers members cs → 2 * cs.length + 1 ≤ fuel →
      readMembers fuel (cs ++ rest) = some (members.map fun m => (some m.1, m.2), rest)
  | [], _, _, _, h, _ => nomatch h
  | _ :: _, _, _, 0, _, hfuel => by omega
  | [(k, v)], _, rest, fuel + 1, .last hbefore hcolon hvalue hv hafter, hfuel => by
      simp only [List.length_append, List.length_cons] at hfuel
      simp only [List.append_assoc, List.cons_append, List.nil_append]
      refine readMembers_of_last (memberName?_write hbefore hcolon k _) ?_
        (skipSpace_separator hafter rfl rest)
      rw [readValue_append hvalue]
      exact readValue_of_spells v hv (stops_of_gap hafter (Number.stops_cons rfl))
        (by omega)
  | (k, v) :: m :: members, _, rest, fuel + 1, .more hbefore hcolon hvalue hv hafter htail,
      hfuel => by
      simp only [List.length_append, List.length_cons] at hfuel
      simp only [List.append_assoc, List.cons_append]
      refine readMembers_of_more (memberName?_write hbefore hcolon k _) ?_
        (skipSpace_separator hafter rfl _)
        (readMembers_of_spells (m :: members) htail (by omega))
      rw [readValue_append hvalue]
      exact readValue_of_spells v hv (stops_of_gap hafter (Number.stops_cons rfl))
        (by omega)
end

/-- A text that `Spells` a value, with a gap on either side, is read as the value. -/
theorem parse?_of_spells {v : Json} {before cs after : List Char} (hbefore : IsGap before)
    (h : Spells v cs) (hafter : IsGap after) :
    parse? (String.ofList (before ++ (cs ++ after))) = some v := by
  unfold parse? ofChars?
  rw [String.toList_ofList, readValue_append hbefore]
  have hstops : Number.Stops after := by
    have hnil : Number.Stops [] := fun c hc => nomatch hc
    have happend := stops_of_gap hafter hnil
    rwa [List.append_nil] at happend
  have hend : skipSpace after = [] := by
    have happend := skipSpace_append hafter []
    rwa [List.append_nil] at happend
  rw [readValue_of_spells v h hstops (by simp only [List.length_append]; omega)]
  simp only [hend, if_true]

end ConfigBinder.Json
