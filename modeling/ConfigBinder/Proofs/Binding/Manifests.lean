/-
What the manifest of a group says.

The bytes of an implementation are UTF-8 text of one object with nothing between its parts,
its `spelling`.  A strict reader finds three members in it, in this order: the interface, the
prefix and the names of the methods as they are declared.  Each of these is quoted, so whatever
characters they hold, the object can be read in one way only, and equal bytes are of groups
that have all three alike.

A loader may know more classes than any index lists, and may answer with a class of another
name.  So the groups of a mapping are also told by `Visits`, the recursion that knows no index:
where it ends, the names of what it made are index enough.
-/
import ConfigBinder.Proofs.Binding.Reach

namespace ConfigBinder

open Json

namespace MappingGroup

/-! ### The text of a manifest -/

/-- The characters of a group's `manifest`. -/
def spelling (g : MappingGroup) : List Char :=
  let quoted := fun s : String => Quoted.write s.toList
  '{' :: (quoted "interface" ++ ':' :: quoted g.interface.name.text ++
    ',' :: quoted "prefix" ++ ':' :: quoted g.keyPrefix ++
    ',' :: quoted "properties" ++
      ':' :: '[' :: [','].intercalate (g.interface.methods.map fun m => quoted m.name) ++
    [']', '}'])

private theorem compactItems_eq_intercalate (items : List Json) :
    compactItems items = [','].intercalate (items.map compactChars) := by
  induction items with
  | nil => rfl
  | cons v rest ih =>
      cases rest with
      | nil => simp [compactItems]
      | cons w rest =>
          simp only [compactItems, ih, List.map_cons, List.intercalate_cons_cons,
            List.append_assoc, List.singleton_append]

/-- A manifest is printed as it is spelled. -/
theorem toList_compact_manifest (g : MappingGroup) : g.manifest.compact.toList = g.spelling := by
  have hmethods : compactItems (g.interface.methods.map fun m => .text m.name) =
      [','].intercalate (g.interface.methods.map fun m => Quoted.write m.name.toList) := by
    rw [compactItems_eq_intercalate, List.map_map]
    rfl
  rw [compact, String.toList_ofList]
  simp [manifest, compactChars, compactMembers, leafChars, hmethods, spelling]

end MappingGroup

/-- The bytes of an implementation say what its group is. -/
structure Implementation.Describes (i : Implementation) (g : MappingGroup) : Prop where
  interface : i.interface = g.interface.name
  /-- The bytes are the text of one object without white space between its parts. -/
  spelled : Text.decodeUtf8? i.bytes = some (String.ofList g.spelling)
  /-- A strict reader finds these members, in this order and no others. -/
  read : (Text.decodeUtf8? i.bytes).bind parse? = some (.object
    [("interface", .text g.interface.name.text), ("prefix", .text g.keyPrefix),
      ("properties", .array (g.interface.methods.map fun m => .text m.name))])

namespace MappingGroup

/-- An implementation `Describes` the group that it was made for. -/
theorem describes_implementation (g : MappingGroup) : g.implementation.Describes g where
  interface := rfl
  spelled := by
    rw [bytes_implementation, Text.decodeUtf8?_encodeUtf8, ← toList_compact_manifest,
      String.ofList_toList]
  read := by
    rw [bytes_implementation, Text.decodeUtf8?_encodeUtf8, Option.bind_some,
      parse?_compact (isPrintable_manifest g), manifest]

private theorem forall₂_describes (groups : List MappingGroup) :
    List.Forall₂ Implementation.Describes (groups.map implementation) groups := by
  rw [List.forall₂_map_left_iff]
  exact List.forall₂_same.mpr fun g _ => describes_implementation g

/-- Implementations with the same bytes say the same. -/
theorem same_of_bytes_eq {i j : Implementation} {g h : MappingGroup} (hi : i.Describes g)
    (hj : j.Describes h) (hbytes : i.bytes = j.bytes) :
    g.interface.name = h.interface.name ∧ g.keyPrefix = h.keyPrefix ∧
      g.interface.methods.map (·.name) = h.interface.methods.map (·.name) := by
  have hread := hi.read
  rw [hbytes, hj.read] at hread
  have hmanifest : g.manifest = h.manifest := (Option.some.inj hread).symm
  exact manifest_inj.mp hmanifest

/-! ### The recursion without an index, and an index for it

`Visits` keeps the names it has met and `walk` the names that are left.  The two go together as
long as the names left are an index (`Indexes`): none of them has been met, and they hold those of
all groups still to be made.
-/

variable {loader : ClassLoader} {met met' : List QualifiedName} {pending made : List MappingGroup}

/-- `Visits` forgets no name that it has met. -/
theorem Visits.mem_met (h : Visits loader met pending met' made) : ∀ n ∈ met, n ∈ met' := by
  induction h with
  | done met => exact fun n hn => hn
  | again _ _ ih => exact ih
  | new _ _ _ ihinner ihrest =>
      exact fun n hn => ihrest n (ihinner n (List.mem_cons_of_mem _ hn))

/-- `Visits` makes no group of an interface that it had met before. -/
theorem Visits.not_mem_met (h : Visits loader met pending met' made) :
    ∀ g ∈ made, g.interface.name ∉ met := by
  induction h with
  | done met => simp
  | again _ _ ih => exact ih
  | new hnew hinner _ ihinner ihrest =>
      intro x hx hmet
      rcases List.mem_cons.mp hx with rfl | hx
      · exact hnew hmet
      · rcases List.mem_append.mp hx with hx | hx
        · exact ihinner x hx (List.mem_cons_of_mem _ hmet)
        · exact ihrest x hx (hinner.mem_met _ (List.mem_cons_of_mem _ hmet))

/-- The names are an index for a recursion that goes from the names met to more of them and makes
the groups: none of them is met yet, and those of the groups are among them.  What is left of the
index are the names that the recursion has not met. -/
structure Indexes (names left met met' : List QualifiedName) (made : List MappingGroup) :
    Prop where
  unmet : ∀ n ∈ names, n ∉ met
  makes : ∀ g ∈ made, g.interface.name ∈ names
  left : ∀ n, n ∈ left ↔ n ∈ names ∧ n ∉ met'

section

variable {names left between : List QualifiedName} {g : MappingGroup}
  {inner later : List MappingGroup}

/-- Without the name of a new group the index is one for what is nested in the group. -/
private theorem Indexes.nested (h : Indexes names left met met' (g :: (inner ++ made)))
    (hinner : Visits loader (g.interface.name :: met) (nested loader g) between inner) :
    Indexes (without names g.interface.name) (names.filter (· ∉ between))
      (g.interface.name :: met) between inner where
  unmet n hn hmet := by
    obtain ⟨hnames, hne⟩ := mem_without.mp hn
    rcases List.mem_cons.mp hmet with heq | hmet
    · exact hne heq
    · exact h.unmet n hnames hmet
  makes x hx := by
    refine mem_without.mpr ⟨h.makes x (by simp [hx]), fun heq => ?_⟩
    exact hinner.not_mem_met x hx (heq ▸ List.mem_cons_self)
  left n := by
    have hgbetween : g.interface.name ∈ between := hinner.mem_met _ List.mem_cons_self
    simp only [List.mem_filter, decide_eq_true_eq, mem_without]
    refine ⟨?_, ?_⟩
    · intro hn
      exact ⟨⟨hn.1, fun heq => hn.2 (heq ▸ hgbetween)⟩, hn.2⟩
    · intro hn
      exact ⟨hn.1.1, hn.2⟩

/-- What is left of it then is an index for the groups behind the new one. -/
private theorem Indexes.rest (h : Indexes names left met met' (g :: (inner ++ made)))
    (hrest : Visits loader between later met' made) :
    Indexes (names.filter (· ∉ between)) left between met' made where
  unmet n hn := by simpa using (List.mem_filter.mp hn).2
  makes x hx := by
    have hname : x.interface.name ∈ names := h.makes x (by simp [hx])
    exact List.mem_filter.mpr ⟨hname, by simpa using hrest.not_mem_met x hx⟩
  left n := by
    rw [h.left]
    simp only [List.mem_filter, decide_eq_true_eq]
    refine ⟨?_, ?_⟩
    · intro hn
      exact ⟨⟨hn.1, fun hbetween => hn.2 (hrest.mem_met n hbetween)⟩, hn.2⟩
    · intro hn
      exact ⟨hn.1.1, hn.2⟩

end

/-- With names that are an index for what `Visits` goes through, `walk` makes the same groups and
goes on with the names that are left. -/
theorem walk_append_of_visits (h : Visits loader met pending met' made) :
    ∀ {names left : List QualifiedName}, Indexes names left met met' made →
      ∀ behind, walk loader names (pending ++ behind) = made ++ walk loader left behind := by
  induction h with
  | done met =>
      intro names left hindex behind
      refine walk_congr (fun n => ?_) behind
      rw [hindex.left]
      exact ⟨fun hn => ⟨hn, hindex.unmet n hn⟩, And.left⟩
  | again hmet _ ih =>
      intro names left hindex behind
      rw [List.cons_append, walk, dif_neg fun hname => hindex.unmet _ hname hmet]
      exact ih hindex behind
  | @new g rest met between met' inner made hgnew hinner hrest ihinner ihrest =>
      intro names left hindex behind
      have hname : g.interface.name ∈ names := hindex.makes g List.mem_cons_self
      rw [List.cons_append, walk, dif_pos hname, ihinner (hindex.nested hinner),
        ihrest (hindex.rest hrest)]
      simp

/-- Where `Visits` ends, `manifestEmitter` makes the same groups with an index of their names. -/
theorem manifestEmitter_of_visits {root : LoadedClass} {keyPrefix : String}
    (h : Visits loader [] [⟨root, keyPrefix⟩] met made) :
    manifestEmitter (made.map (·.interface.name)) loader root keyPrefix =
      .ok (made.map implementation) := by
  have hroot : root.name ∈ made.map (·.interface.name) := by
    cases h with
    | again hmet _ => exact absurd hmet List.not_mem_nil
    | new _ _ _ => exact List.mem_cons_self
  have hindex : Indexes (root.name :: made.map (·.interface.name))
      ((root.name :: made.map (·.interface.name)).filter (· ∉ met)) [] met made :=
    ⟨by simp, fun g hg => List.mem_cons_of_mem _ (List.mem_map_of_mem hg), by simp⟩
  have hwalk := walk_append_of_visits h hindex []
  rw [List.append_nil, walk, List.append_nil] at hwalk
  rw [manifestEmitter, ofMapping, hwalk]

/-- **Every manifest describes its group.**  For any loader, also one that answers under other
names, the emitter's implementations describe one by one groups that methods lead to from the
mapping's own; so do those that the recursion without an index makes, whenever it ends.
Implementations with equal bytes, of whatever mappings and loaders, are bound to one interface
and describe groups with one prefix and the same method names. -/
theorem manifests_describe (loader : ClassLoader) (root : LoadedClass) (keyPrefix : String) :
    (∀ names, ∃ implementations groups,
        manifestEmitter names loader root keyPrefix = .ok implementations ∧
          List.Forall₂ Implementation.Describes implementations groups ∧
          ∀ g ∈ groups, ComesTo loader ⟨root, keyPrefix⟩ g) ∧
      (∀ met groups, Visits loader [] [⟨root, keyPrefix⟩] met groups →
        ∃ names implementations,
          manifestEmitter names loader root keyPrefix = .ok implementations ∧
            List.Forall₂ Implementation.Describes implementations groups) ∧
      ∀ (i j : Implementation) (g h : MappingGroup), i.Describes g → j.Describes h →
        i.bytes = j.bytes → i.interface = j.interface ∧ g.interface.name = h.interface.name ∧
          g.keyPrefix = h.keyPrefix ∧
          g.interface.methods.map (·.name) = h.interface.methods.map (·.name) := by
  refine ⟨?_, ?_, ?_⟩
  · intro names
    exact ⟨_, ofMapping names loader root keyPrefix, rfl, forall₂_describes _,
      comesTo_of_mem_ofMapping⟩
  · intro met groups h
    exact ⟨_, _, manifestEmitter_of_visits h, forall₂_describes groups⟩
  · intro i j g h hi hj hbytes
    obtain ⟨hname, hsame⟩ := same_of_bytes_eq hi hj hbytes
    exact ⟨by rw [hi.interface, hj.interface, hname], hname, hsame⟩

end MappingGroup

end ConfigBinder
