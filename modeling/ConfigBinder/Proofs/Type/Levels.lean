/-
What an outer name tells of a type.

Types that need a provider are told apart by their outer names, and a type is resolved by
its outer name alone, with pairs of brackets taken off the end until none is there.  That
a name comes down to one number of levels and one name before them is the uniqueness of
`Stripped`.  The name of a type that `HasPlainCore` comes down to its own array levels and the
name of its core.  So types of one outer name are `Alike`: they have as many levels and cores of
one name; only the type arguments, and whether a name is that of a primitive type or of a
class, are no part of it.
-/
import ConfigBinder.Proofs.Binding.Analysis
import ConfigBinder.Proofs.Startup.Resolution

namespace ConfigBinder

open QualifiedName

/-! ### Taking brackets off

`Stripped` takes the steps that resolving takes, but without any types to look into, so it can be
compared with what resolving comes to and with what a type is made of.
-/

namespace QualifiedName

/-- Taking pairs of brackets off the end of the name, until none is there, takes off so many
and leaves the base. -/
inductive Stripped : String → Nat → String → Prop
  | bare {name : String} (h : endsInBrackets name = false) : Stripped name 0 name
  | pair {name shorter base : String} {n : Nat} (hname : name = shorter ++ "[]")
      (h : Stripped shorter n base) : Stripped name (n + 1) base

/-- A name is `Stripped` to one number of pairs and one base. -/
theorem Stripped.unique {name base base' : String} {n n' : Nat} (h : Stripped name n base)
    (h' : Stripped name n' base') : n = n' ∧ base = base' := by
  induction h generalizing n' with
  | bare hbare =>
      cases h' with
      | bare _ => exact ⟨rfl, rfl⟩
      | pair hname _ =>
          rw [hname, endsInBrackets_append] at hbare
          exact Bool.noConfusion hbare
  | pair hname _ ih =>
      cases h' with
      | bare hbare =>
          rw [hname, endsInBrackets_append] at hbare
          exact Bool.noConfusion hbare
      | pair hname' hshorter =>
          obtain rfl := (String.append_left_inj _).mp (hname.symm.trans hname')
          obtain ⟨rfl, rfl⟩ := ih hshorter
          exact ⟨rfl, rfl⟩

/-- The brackets of an `arrayName` are taken off, and nothing else. -/
theorem stripped_arrayName {base : String} (h : endsInBrackets base = false) (n : Nat) :
    Stripped (arrayName base n) n base := by
  induction n with
  | zero => exact .bare h
  | succ n ih => exact .pair rfl ih

end QualifiedName

/-- `resolve` takes a name to the converter of what is left of it, with an array level for each pair
taken off. -/
theorem KnownTypes.resolve_of_stripped (known : KnownTypes) {name base : String} {n : Nat}
    (h : Stripped name n base) :
    known.resolve name = (known.element? base).map (·.arrays n) := by
  induction h with
  | bare hbare =>
      rw [resolve_of_not_endsInBrackets known hbare]
      exact Option.map_id'.symm
  | pair hname _ ih =>
      rw [hname, resolve_array, ih, Option.map_map]
      rfl

namespace TypeRef

/-! ### Types and their names -/

/-- A core that is a class, with arguments or without, has a name that does not end in
brackets. -/
def HasPlainCore (t : TypeRef) : Prop :=
  ∀ name, (t.core = .named name ∨ ∃ arguments, t.core = .applied name arguments) →
    endsInBrackets name.text = false

/-- As many array levels, and cores of one outer name. -/
def Alike (t u : TypeRef) : Prop := t.levels = u.levels ∧ t.core.outerName = u.core.outerName

variable {t u : TypeRef}

private theorem HasPlainCore.endsInBrackets_core (h : t.HasPlainCore) :
    endsInBrackets t.core.outerName.text = false := by
  cases hcore : t.core with
  | primitive p => exact p.endsInBrackets_name
  | named name => exact h name (Or.inl hcore)
  | applied name arguments => exact h name (Or.inr ⟨arguments, hcore⟩)
  | array e =>
      have harray := t.isArray_core
      rw [hcore] at harray
      exact Bool.noConfusion harray

/-- The name of a type that `HasPlainCore` is `Stripped` to its levels and the name of its core. -/
theorem HasPlainCore.stripped_outerName (h : t.HasPlainCore) :
    Stripped t.outerName.text t.levels t.core.outerName.text := by
  rw [t.outerName_text]
  exact stripped_arrayName h.endsInBrackets_core t.levels

/-- Types that are `Alike` have one outer name, whatever their cores are called. -/
theorem Alike.outerName_eq (h : t.Alike u) : t.outerName = u.outerName := by
  rw [← text_inj, t.outerName_text, u.outerName_text, h.1, h.2]

/-- Types of one outer name are `Alike` when their cores have plain names. -/
theorem alike_of_outerName_eq (ht : t.HasPlainCore) (hu : u.HasPlainCore)
    (h : t.outerName = u.outerName) : t.Alike u := by
  have hname := ht.stripped_outerName
  rw [h] at hname
  obtain ⟨hlevels, hcore⟩ := hname.unique hu.stripped_outerName
  exact ⟨hlevels, text_inj.mp hcore⟩

theorem outerName_eq_iff_alike (ht : t.HasPlainCore) (hu : u.HasPlainCore) :
    t.outerName = u.outerName ↔ t.Alike u :=
  ⟨alike_of_outerName_eq ht hu, Alike.outerName_eq⟩

/-- A core that is not plain: a class that is named like an array. -/
example : (named ⟨"org.acme.Foo[]"⟩).outerName = (array (named ⟨"org.acme.Foo"⟩)).outerName := rfl

end TypeRef

/-! ### Types that need a provider -/

namespace Unsupplied

open TypeRef

variable {t : TypeRef}

/-- `insert` adds nothing just when the name of the type is taken. -/
theorem insert_eq_self_iff {found : Unsupplied} :
    found.insert t = found ↔ found.covers t.outerName = true := by
  refine ⟨?_, ?_⟩
  · intro h
    have hcovers := (covers_insert found t t.outerName).mpr (Or.inr rfl)
    rwa [h] at hcovers
  · intro h
    exact dif_pos h

/-- `insert` adds nothing just when a type that is `Alike` was there. -/
theorem insert_eq_self_iff_alike {found : Unsupplied} (hfound : ∀ a ∈ found.types, a.HasPlainCore)
    (ht : t.HasPlainCore) : found.insert t = found ↔ ∃ a ∈ found.types, a.Alike t := by
  rw [insert_eq_self_iff, covers_iff]
  refine exists_congr fun a => and_congr_right fun ha => ?_
  exact outerName_eq_iff_alike (hfound a ha) ht

end Unsupplied

namespace TypeRef

/--
**An outer name tells the levels and the core's name, and no more.**  Types whose cores have
plain names have one outer name just when they have as many array levels and cores of one
outer name.  Taking brackets off a name until none is there takes off as many pairs as the
type has levels and leaves the name of its core, so it is resolved as an array of that core
with just these levels; and among types that need a provider, a type adds nothing just when
one with as many levels and a core of its core's name is there.
-/
theorem outerName_tells_levels {t u : TypeRef} (ht : t.HasPlainCore) (hu : u.HasPlainCore) :
    (t.outerName = u.outerName ↔
        t.levels = u.levels ∧ t.core.outerName = u.core.outerName) ∧
      (∀ n base, Stripped t.outerName.text n base ↔
        n = t.levels ∧ base = t.core.outerName.text) ∧
      (∀ known : KnownTypes, known.resolve t.outerName.text =
        (known.element? t.core.outerName.text).map (·.arrays t.levels)) ∧
      ∀ found : Unsupplied, (∀ a ∈ found.types, a.HasPlainCore) →
        (found.insert t = found ↔ ∃ a ∈ found.types, a.Alike t) := by
  have hstripped := ht.stripped_outerName
  refine ⟨outerName_eq_iff_alike ht hu, ?_, ?_, ?_⟩
  · intro n base
    refine ⟨fun h => h.unique hstripped, ?_⟩
    rintro ⟨rfl, rfl⟩
    exact hstripped
  · intro known
    exact known.resolve_of_stripped hstripped
  · intro found hfound
    exact Unsupplied.insert_eq_self_iff_alike hfound ht

/-- Arrays of lists, of texts and of whatever. -/
def textLists : TypeRef := array (array (applied ⟨"java.util.List"⟩ [named ⟨"java.lang.String"⟩]))

def plainLists : TypeRef := array (array (named ⟨"java.util.List"⟩))

theorem outerName_tells_levels_lists :
    textLists.outerName = plainLists.outerName ∧
      Stripped textLists.outerName.text 2 "java.util.List" ∧
      KnownTypes.builtinOnly.resolve textLists.outerName.text = some (Converter.anything.arrays 2) ∧
      (Unsupplied.empty.insert plainLists).insert textLists =
        Unsupplied.empty.insert plainLists := by
  have htexts : textLists.HasPlainCore := by
    rintro name (hcore | ⟨arguments, hcore⟩)
    · exact TypeRef.noConfusion hcore
    · obtain rfl : _ = name := (TypeRef.applied.inj hcore).1
      decide
  have hplain : plainLists.HasPlainCore := by
    rintro name (hcore | ⟨arguments, hcore⟩)
    · obtain rfl : _ = name := TypeRef.named.inj hcore
      decide
    · exact TypeRef.noConfusion hcore
  obtain ⟨hname, hstripped, hresolve, hinsert⟩ := outerName_tells_levels htexts hplain
  have htypes : (Unsupplied.empty.insert plainLists).types = [plainLists] := rfl
  refine ⟨hname.mpr ⟨rfl, rfl⟩, (hstripped _ _).mpr ⟨rfl, rfl⟩, hresolve _, (hinsert _ ?_).mpr ?_⟩
  · intro a ha
    rw [htypes] at ha
    obtain rfl := List.mem_singleton.mp ha
    exact hplain
  · rw [htypes]
    exact ⟨plainLists, List.mem_singleton_self _, rfl, rfl⟩

end TypeRef

end ConfigBinder
