/-
The groups that a walk over interfaces makes.

`walk` strikes out the name of each interface that it makes a group of, so no two of its
groups have one interface (`nodup_walk`).  Whatever holds of the pending groups, and of the
groups that a method leads to whenever it holds of the one with the method, holds of all groups
made (`walk_holds`); so all of them have interfaces that the loader gives.

What the declarations of a snapshot add is then told by their groups, declaration by
declaration, without the order in which they stand: `itemsOf` for one of them, and
`mem_generate` for all.
-/
import ConfigBinder.Proofs.Binding.Run
import ConfigBinder.Proofs.Json.Printer
import ConfigBinder.Proofs.Metadata.Snapshot

namespace ConfigBinder

/-! ### The walk

`walk` recurses on what is left of its index, and in it on the pending groups.  Each induction
below follows that, with the index and the pending groups general.
-/

/-- The method returns the plain type of the interface, which loads. -/
def Method.Returns (loader : ClassLoader) (m : Method) (h : LoadedClass) : Prop :=
  ∃ name, m.returnType = .named name ∧ loader name = .ok h ∧ h.isInterface = true

namespace MappingGroup

variable {loader : ClassLoader}

theorem nestedInterface?_eq_some_iff {m : Method} {h : LoadedClass} :
    nestedInterface? loader m.returnType = some h ↔ m.Returns loader h := by
  unfold Method.Returns
  cases m.returnType with
  | named name =>
      simp only [nestedInterface?, TypeRef.named.injEq, exists_eq_left']
      cases loader name with
      | error reason => simp
      | ok c =>
          simp only [Option.ite_none_right_eq_some, Option.some.injEq, Except.ok.injEq]
          refine ⟨?_, ?_⟩
          · intro hc
            obtain ⟨hinterface, rfl⟩ := hc
            exact ⟨rfl, hinterface⟩
          · intro hc
            obtain ⟨rfl, hinterface⟩ := hc
            exact ⟨hinterface, rfl⟩
  | primitive p | applied name arguments | array component => simp [nestedInterface?]

/-- The groups `nested` in a group are the interfaces that its methods return, each under the key
of the method. -/
theorem mem_nested_iff {g x : MappingGroup} : x ∈ nested loader g ↔
    ∃ m ∈ g.interface.methods, m.Returns loader x.interface ∧
      x.keyPrefix = nestedPrefix g.keyPrefix m.name := by
  refine List.mem_filterMap.trans (exists_congr fun m => and_congr_right fun _ => ?_)
  rw [Option.map_eq_some_iff]
  refine ⟨?_, ?_⟩
  · intro hx
    obtain ⟨interface, hinterface, rfl⟩ := hx
    exact ⟨nestedInterface?_eq_some_iff.mp hinterface, rfl⟩
  · intro hx
    obtain ⟨hreturns, hprefix⟩ := hx
    exact ⟨x.interface, nestedInterface?_eq_some_iff.mpr hreturns, by rw [← hprefix]⟩

/-- What passes from a group to those `nested` in it holds of all groups that `walk` makes. -/
theorem walk_holds {P : MappingGroup → Prop}
    (hnested : ∀ g, P g → ∀ h ∈ nested loader g, P h) (names : List QualifiedName)
    (pending : List MappingGroup) (hpending : ∀ g ∈ pending, P g) :
    ∀ g ∈ walk loader names pending, P g := by
  fun_induction walk loader names pending with
  | case1 names => simp
  | case2 names g pending hname ih =>
      have hg : P g := hpending g List.mem_cons_self
      intro x hx
      rcases List.mem_cons.mp hx with rfl | hx
      · exact hg
      · refine ih ?_ x hx
        intro y hy
        rcases List.mem_append.mp hy with hy | hy
        · exact hnested g hg y hy
        · exact hpending y (List.mem_cons_of_mem _ hy)
  | case3 names g pending hname ih =>
      exact ih fun y hy => hpending y (List.mem_cons_of_mem _ hy)

/-- A loader gives classes under the names that they have. -/
def NamesClasses (loader : ClassLoader) : Prop :=
  ∀ {name : QualifiedName} {c : LoadedClass}, loader name = .ok c → c.name = name

/-- Every group that `walk` makes has the interface that the loader gives under its name. -/
theorem loader_of_mem_walk (hnames : NamesClasses loader) (names : List QualifiedName)
    (pending : List MappingGroup)
    (hpending : ∀ g ∈ pending, loader g.interface.name = .ok g.interface) :
    ∀ g ∈ walk loader names pending, loader g.interface.name = .ok g.interface := by
  refine walk_holds (P := fun g => loader g.interface.name = .ok g.interface) ?_ _ _ hpending
  intro g _ x hx
  obtain ⟨m, -, ⟨name, -, hload, -⟩, -⟩ := mem_nested_iff.mp hx
  rw [hnames hload, hload]

theorem mem_without {names : List QualifiedName} {n m : QualifiedName} :
    m ∈ without names n ↔ m ∈ names ∧ m ≠ n := by
  simp [without]

private theorem name_mem_of_mem_walk (names : List QualifiedName) (pending : List MappingGroup) :
    ∀ g ∈ walk loader names pending, g.interface.name ∈ names := by
  fun_induction walk loader names pending with
  | case1 names => simp
  | case2 names g pending hname ih =>
      intro x hx
      rcases List.mem_cons.mp hx with rfl | hx
      · exact hname
      · exact (mem_without.mp (ih x hx)).1
  | case3 names g pending hname ih => exact ih

/-- `walk` reads its names as a set. -/
theorem walk_congr {names names' : List QualifiedName} (h : ∀ n, n ∈ names ↔ n ∈ names')
    (pending : List MappingGroup) : walk loader names pending = walk loader names' pending := by
  fun_induction walk loader names pending generalizing names' with
  | case1 names => rw [walk]
  | case2 names g pending hname ih =>
      have hwithout : ∀ n, n ∈ without names g.interface.name ↔
          n ∈ without names' g.interface.name := by
        intro n
        rw [mem_without, mem_without, h]
      rw [walk, dif_pos ((h _).mp hname), ih hwithout]
  | case3 names g pending hname ih =>
      rw [walk, dif_neg fun hname' => hname ((h _).mpr hname'), ih h]

/-- `walk` makes one group at most of an interface. -/
theorem nodup_walk (names : List QualifiedName) (pending : List MappingGroup) :
    ((walk loader names pending).map (·.interface.name)).Nodup := by
  fun_induction walk loader names pending with
  | case1 names => exact List.nodup_nil
  | case2 names g pending hname ih =>
      refine List.nodup_cons.mpr ⟨?_, ih⟩
      intro hmem
      obtain ⟨x, hx, heq⟩ := List.mem_map.mp hmem
      -- `walk` goes on without the name it has just made a group of
      exact (mem_without.mp (name_mem_of_mem_walk _ _ x hx)).2 heq
  | case3 names g pending hname ih => exact ih

/-! ### Implementations

A manifest loses nothing of a group but the classes that its methods return.  The name of a class
is made of the interface alone.
-/

theorem isPrintable_manifest (g : MappingGroup) : g.manifest.IsPrintable := by
  simp [manifest]

theorem manifest_inj {g h : MappingGroup} :
    g.manifest = h.manifest ↔ g.interface.name = h.interface.name ∧
      g.keyPrefix = h.keyPrefix ∧
        g.interface.methods.map (·.name) = h.interface.methods.map (·.name) := by
  have hmethods : g.interface.methods.map (fun m => Json.text m.name) =
      h.interface.methods.map (fun m => Json.text m.name) ↔
        g.interface.methods.map (·.name) = h.interface.methods.map (·.name) := by
    rw [← List.map_inj_right (f := Json.text) (by simp), List.map_map, List.map_map]
    rfl
  simp [manifest, QualifiedName.text_inj, hmethods]

theorem bytes_implementation (g : MappingGroup) :
    g.implementation.bytes = Text.encodeUtf8 g.manifest.compact := by
  rw [implementation]

/-- The bytes of an implementation tell the interface, the prefix and the methods of its
group. -/
theorem bytes_implementation_inj {g h : MappingGroup} :
    g.implementation.bytes = h.implementation.bytes ↔
      g.interface.name = h.interface.name ∧ g.keyPrefix = h.keyPrefix ∧
        g.interface.methods.map (·.name) = h.interface.methods.map (·.name) := by
  rw [← manifest_inj, ← Json.compact_inj (isPrintable_manifest g) (isPrintable_manifest h),
    bytes_implementation, bytes_implementation]
  refine ⟨?_, ?_⟩
  · intro hbytes
    have hread := Text.decodeUtf8?_encodeUtf8 g.manifest.compact
    rw [hbytes, Text.decodeUtf8?_encodeUtf8] at hread
    exact (Option.some.inj hread).symm
  · intro htext
    rw [htext]

/-- The class of an implementation is named for the interface alone. -/
theorem className_implementation_inj {g h : MappingGroup} :
    g.implementation.className = h.implementation.className ↔
      g.interface.name = h.interface.name := by
  rw [← QualifiedName.text_inj]
  exact String.append_left_inj implementationSuffix

end MappingGroup

/-! ### What the declarations of a snapshot add -/

namespace Snapshot

/-- The interfaces with their prefixes that a snapshot declares as mappings. -/
def mappings (s : Snapshot) (settings : Settings) : List (QualifiedName × String) :=
  ConfigMapping.declared (s.source.declarations settings.mappingAnnotation)

/-- The groups of a mapping, those of `ofMapping`, and none when its interface does not load. -/
def groupsOf (s : Snapshot) (m : QualifiedName × String) : List MappingGroup :=
  match s.source.loader m.1 with
  | .ok root => MappingGroup.ofMapping (s.classes.map (·.name)) s.source.loader root m.2
  | .error _ => []

/-- What a mapping adds. -/
def itemsOf (s : Snapshot) (settings : Settings) (m : QualifiedName × String) : Collected :=
  ConfigMapping.contribution settings m.1 m.2 ((s.groupsOf m).map MappingGroup.implementation)

variable {s : Snapshot} {settings : Settings}

theorem namesClasses_loader (s : Snapshot) : MappingGroup.NamesClasses s.source.loader := by
  intro name c h
  rw [MetadataSource.loader] at h
  cases hc : s.source.classEntry? name with
  | none => simp [hc] at h
  | some entry =>
      obtain ⟨-, hname⟩ := mem_classes_of_classEntry? hc
      simp only [hc, Except.ok.injEq] at h
      rw [← h]
      exact hname

/-- Every group of `groupsOf` has the interface that the snapshot gives under its name. -/
theorem loader_of_mem_groupsOf {m : QualifiedName × String} {g : MappingGroup}
    (h : g ∈ s.groupsOf m) : s.source.loader g.interface.name = .ok g.interface := by
  cases hroot : s.source.loader m.1 with
  | error reason => simp [groupsOf, hroot] at h
  | ok root =>
      rw [groupsOf, hroot] at h
      refine MappingGroup.loader_of_mem_walk s.namesClasses_loader _ _ ?_ g h
      intro g hg
      rw [List.mem_singleton.mp hg, s.namesClasses_loader hroot, hroot]

theorem nodup_groupsOf (m : QualifiedName × String) :
    ((s.groupsOf m).map (·.interface.name)).Nodup := by
  unfold groupsOf
  split
  · exact MappingGroup.nodup_walk _ _
  · exact List.nodup_nil

theorem bind_eq_itemsOf {m : QualifiedName × String} {own : Collected}
    (h : ConfigMapping.bind (s.context settings) m.1 m.2 = .ok own) :
    own = s.itemsOf settings m := by
  unfold ConfigMapping.bind at h
  split at h
  · exact nomatch h
  · rename_i loaded hload
    have hload : s.source.loader m.1 = .ok loaded := hload
    have hgroups : s.groupsOf m = MappingGroup.ofMapping (s.classes.map (·.name))
        s.source.loader loaded m.2 := by
      rw [groupsOf, hload]
    have hemit : (s.context settings).emitter loaded m.2 =
        .ok ((s.groupsOf m).map MappingGroup.implementation) := by
      rw [hgroups]
      rfl
    rw [hemit] at h
    unfold itemsOf
    cases hmade : (s.groupsOf m).map MappingGroup.implementation with
    | nil => simp [hmade] at h
    | cons i rest =>
        simp only [hmade] at h
        exact (Except.ok.inj h).symm

/-- What `generate` adds over a snapshot is what each mapping adds (`itemsOf`). -/
theorem mem_generate {α : Type} (kind : Collected → List α) (hempty : kind ∅ = [])
    (happend : ∀ a b, kind (a ++ b) = kind a ++ kind b) {added : Collected} {x : α}
    (h : ConfigMapping.generate (s.context settings) = (added, .ok ())) :
    x ∈ kind added ↔ ∃ m ∈ s.mappings settings, x ∈ kind (s.itemsOf settings m) := by
  rw [ConfigMapping.mem_bindAll kind hempty happend _ h]
  refine ⟨?_, ?_⟩
  · intro hx
    obtain ⟨m, hm, own, hown, hx⟩ := hx
    rw [bind_eq_itemsOf hown] at hx
    exact ⟨m, hm, hx⟩
  · intro hx
    obtain ⟨m, hm, hx⟩ := hx
    obtain ⟨own, hown⟩ := ConfigMapping.binds_of_bindAll _ h m hm
    rw [← bind_eq_itemsOf hown] at hx
    exact ⟨m, hm, own, hown, hx⟩

end Snapshot

end ConfigBinder
