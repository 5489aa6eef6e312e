/-
What the validation stage makes of the properties found.

One walk over the properties gives two results that forget different things.  Grouped by
name, a property keeps each type that it is injected as, whether it is primitive or not, and
order and repetition are gone: two lists are grouped alike just when they hold the same pairs
of a name and a type.  `PropertyTypes.Groups` tells the map by its list.

The types to look up (`AreLookUpsOf`) keep the order in which they come up, but each is there
once for all properties, and a primitive type does not count, also when a class of the same
name stands elsewhere in the list.
-/
import ConfigBinder.Proofs.Binding.Run

namespace ConfigBinder

namespace ConfigProperty

/-! ### Types to look up

`lookedUp` walks on with the names it has seen, so the order is shown for any of these.  What is
behind the first property keeps its order and only moves one place further on.
-/

/-- The property is injected as a type of the outer name that is found by name. -/
def isLookedUpAs (name : String) (p : ConfigProperty) : Bool :=
  !p.requiredType.isPrimitive && p.requiredType.outerName.text = name

theorem isLookedUpAs_iff {name : String} {p : ConfigProperty} :
    p.isLookedUpAs name = true ↔ p.requiredType.isPrimitive = false ∧ p.typeName = name := by
  simp [isLookedUpAs, typeName]

/-- The names are those that a property `isLookedUpAs`, each once and in the order in which they
come up first. -/
structure AreLookUpsOf (properties : List ConfigProperty) (names : List String) : Prop where
  occurring : ∀ name, name ∈ names ↔ ∃ p ∈ properties, p.isLookedUpAs name = true
  once : names.Nodup
  /-- A name that stands before another is the first to come up of the two. -/
  sorted : names.Pairwise fun a b =>
    properties.findIdx (isLookedUpAs a) < properties.findIdx (isLookedUpAs b)

private theorem findIdx_cons_of_not_isLookedUpAs {name : String} {p : ConfigProperty}
    {rest : List ConfigProperty} (h : ¬ p.isLookedUpAs name = true) :
    (p :: rest).findIdx (isLookedUpAs name) = rest.findIdx (isLookedUpAs name) + 1 := by
  rw [List.findIdx_cons, Bool.eq_false_iff.mpr h, cond_false]

/-- What comes up behind a property keeps its order and moves one place further on, unless the
property is looked up as one of the names. -/
private theorem pairwise_findIdx_cons {p : ConfigProperty} {rest : List ConfigProperty}
    {names : List String} (hother : ∀ name ∈ names, ¬ p.isLookedUpAs name = true)
    (h : names.Pairwise fun a b => rest.findIdx (isLookedUpAs a) < rest.findIdx (isLookedUpAs b)) :
    names.Pairwise fun a b =>
      (p :: rest).findIdx (isLookedUpAs a) < (p :: rest).findIdx (isLookedUpAs b) := by
  refine h.imp_of_mem fun {a b} ha hb hlt => ?_
  rw [findIdx_cons_of_not_isLookedUpAs (hother a ha),
    findIdx_cons_of_not_isLookedUpAs (hother b hb)]
  exact Nat.succ_lt_succ hlt

/-- `lookedUp` lists the names in the order in which they come up. -/
theorem sorted_lookedUp (properties : List ConfigProperty) :
    ∀ seen : List String, (lookedUp seen properties).Pairwise fun a b =>
      properties.findIdx (isLookedUpAs a) < properties.findIdx (isLookedUpAs b) := by
  induction properties with
  | nil => intro seen; simp [lookedUp]
  | cons p rest ih =>
      intro seen
      rw [lookedUp]
      by_cases hskip : (p.requiredType.isPrimitive || seen.contains p.typeName) = true
      · rw [if_pos hskip]
        refine pairwise_findIdx_cons (fun name hname hp => ?_) (ih seen)
        obtain ⟨hprimitive, rfl⟩ := isLookedUpAs_iff.mp hp
        rw [hprimitive, Bool.false_or, List.contains_iff_mem] at hskip
        exact ((mem_lookedUp rest seen).mp hname).1 hskip
      · rw [if_neg hskip]
        have hother : ∀ name ∈ lookedUp (p.typeName :: seen) rest,
            ¬ p.isLookedUpAs name = true := by
          intro name hname hp
          obtain ⟨-, rfl⟩ := isLookedUpAs_iff.mp hp
          exact ((mem_lookedUp rest _).mp hname).1 List.mem_cons_self
        refine List.pairwise_cons.mpr ⟨?_, pairwise_findIdx_cons hother (ih _)⟩
        intro name hname
        have hfirst : p.isLookedUpAs p.typeName = true := by
          simp only [Bool.or_eq_true, not_or, Bool.not_eq_true] at hskip
          exact isLookedUpAs_iff.mpr ⟨hskip.1, rfl⟩
        rw [findIdx_cons_of_not_isLookedUpAs (hother name hname), List.findIdx_cons, hfirst,
          cond_true]
        exact Nat.succ_pos _

theorem areLookUpsOf_lookedUp (properties : List ConfigProperty) :
    AreLookUpsOf properties (lookedUp [] properties) where
  occurring name := by
    rw [mem_lookedUp]
    simp only [List.not_mem_nil, not_false_eq_true, true_and, isLookedUpAs_iff]
  once := (sorted_lookedUp properties []).imp fun hlt heq => by
    rw [heq] at hlt
    exact Nat.lt_irrefl _ hlt
  sorted := sorted_lookedUp properties []

end ConfigProperty

/-! ### Grouped types -/

namespace PropertyTypes

/-- The map holds the properties of the list under their names, and under each name the types
that properties of that name are injected as. -/
structure Groups (types : PropertyTypes) (properties : List ConfigProperty) : Prop where
  keys : ∀ name, name ∈ types.keys ↔ ∃ p ∈ properties, p.name = name
  typesOf : ∀ name ∈ types.keys, ∃ held, types.get? name = some held ∧ (∃ type, type ∈ held) ∧
    ∀ type, type ∈ held ↔ ∃ p ∈ properties, p.name = name ∧ p.requiredType.outerName.text = type
  absent : ∀ name, name ∉ types.keys → types.get? name = none

theorem groups_group (properties : List ConfigProperty) :
    (ConfigProperty.group properties).Groups properties where
  keys name := by
    rw [OrderedMap.mem_keys_iff]
    refine ⟨?_, ?_⟩
    · intro h
      obtain ⟨held, hheld⟩ := h
      obtain ⟨type, htype⟩ := filled_ofPairs _ name held hheld
      obtain ⟨p, hp, hname, -⟩ := ConfigProperty.asks_group.mp ⟨held, hheld, htype⟩
      exact ⟨p, hp, hname⟩
    · intro h
      obtain ⟨p, hp, hname⟩ := h
      obtain ⟨held, hheld, -⟩ := ConfigProperty.asks_group.mpr ⟨p, hp, hname, rfl⟩
      exact ⟨held, hheld⟩
  typesOf name hname := by
    obtain ⟨held, hheld⟩ := OrderedMap.mem_keys_iff.mp hname
    refine ⟨held, hheld, filled_ofPairs _ name held hheld, fun type => ?_⟩
    rw [← asks_iff_of_get? hheld]
    exact ConfigProperty.asks_group
  absent name hname := by
    cases hget : (ConfigProperty.group properties).get? name with
    | none => rfl
    | some held => exact absurd (OrderedMap.mem_keys_iff.mpr ⟨held, hget⟩) hname

end PropertyTypes

namespace Stage

/-- **The validation loses no type of a property and has each looked up once.**  Whatever has
been collected, the stage groups the properties found so far, appends to the reachable classes
one that is looked up only for each type that is not primitive, in the order in which these
come up, and leaves all else as it was.  Behind other items it groups alike just when their
properties make the same pairs of a name and a type. -/
theorem validation_groups (context : BindingContext) (before : Collected) :
    ∃ types names, run context before .validation =
        ({ before with reflective := before.reflective ++ names.map ReflectiveClass.lookupOnly },
          .grouped types) ∧
      types.Groups before.properties ∧
      ConfigProperty.AreLookUpsOf before.properties names ∧
      ∀ other : Collected, (run context other .validation).2 = .grouped types ↔
        ∀ name type,
          (∃ p ∈ other.properties, p.name = name ∧ p.requiredType.outerName.text = type) ↔
            ∃ p ∈ before.properties, p.name = name ∧ p.requiredType.outerName.text = type := by
  refine ⟨ConfigProperty.group before.properties, ConfigProperty.lookedUp [] before.properties,
    ?_, PropertyTypes.groups_group _, ConfigProperty.areLookUpsOf_lookedUp _, ?_⟩
  · simp [run, contribution, Collected.append_def, Collected.append, ConfigProperty.reflective]
  · intro other
    show StageResult.grouped (ConfigProperty.group other.properties) = _ ↔ _
    rw [StageResult.grouped.injEq]
    exact ConfigProperty.group_eq_iff

end Stage

end ConfigBinder
