/-
What the walk over nested interfaces reaches.

The walk goes into a group before it goes on behind it, and makes no group of an interface
that it has met.  It strikes names out of an index, which is why it ends; what has to be
shown is that the index costs nothing.

  * Every name that a group leads to is made or has been struck out before (`walk_makes`), so
    what is made is closed under the interfaces that methods return.  With the walk making
    nothing else, the interfaces made are those that can be reached.
  * `Visits`, the recursion that knows no index, only the names it has met, ends as well, and in
    the same groups.

Each group but the first stands behind one that leads to it, so its prefix goes on from the
prefix of that one: `ComesTo` follows the methods from group to group.
-/
import ConfigBinder.Proofs.Binding.Groups
import Mathlib.Logic.Relation

namespace ConfigBinder

/-- Some method of the first interface returns the plain type of the second. -/
def LoadedClass.LeadsTo (loader : ClassLoader) (g h : LoadedClass) : Prop :=
  ∃ m ∈ g.methods, m.Returns loader h

/-- The loader that refuses some names, each for a reason, and else answers as before. -/
def ClassLoader.refusing (loader : ClassLoader) (refused : QualifiedName → Option String) :
    ClassLoader := fun name =>
  match refused name with
  | some reason => .error reason
  | none => loader name

namespace MappingGroup

variable {loader : ClassLoader}

private theorem leadsTo_of_mem_nested {g x : MappingGroup} (h : x ∈ nested loader g) :
    LoadedClass.LeadsTo loader g.interface x.interface := by
  obtain ⟨m, hm, hreturns, -⟩ := mem_nested_iff.mp h
  exact ⟨m, hm, hreturns⟩

theorem exists_mem_nested_of_leadsTo {g : MappingGroup} {h : LoadedClass}
    (hleads : LoadedClass.LeadsTo loader g.interface h) :
    ∃ x ∈ nested loader g, x.interface = h := by
  obtain ⟨m, hm, hreturns⟩ := hleads
  exact ⟨⟨h, nestedPrefix g.keyPrefix m.name⟩, mem_nested_iff.mpr ⟨m, hm, hreturns, rfl⟩, rfl⟩

/-- `nested` leads, step by step, from one group to the other. -/
def ComesTo (loader : ClassLoader) : MappingGroup → MappingGroup → Prop :=
  Relation.ReflTransGen fun g x => x ∈ nested loader g

/-! ### Nothing in the index is missed -/

/-- A group of the name is among the ones made. -/
def Makes (groups : List MappingGroup) (name : QualifiedName) : Prop :=
  ∃ g ∈ groups, g.interface.name = name

/-- Of every pending group, and of every group `nested` in one that is made, `walk` makes the
interface unless its name has been struck out before. -/
theorem walk_makes (names : List QualifiedName) (pending : List MappingGroup) :
    (∀ g ∈ pending, g.interface.name ∈ names →
        Makes (walk loader names pending) g.interface.name) ∧
      ∀ g ∈ walk loader names pending, ∀ x ∈ nested loader g, x.interface.name ∈ names →
        Makes (walk loader names pending) x.interface.name := by
  fun_induction walk loader names pending with
  | case1 names => simp
  | case2 names g pending hname ih =>
      obtain ⟨ihpending, ihnested⟩ := ih
      -- a name is the one made here, or is left for the rest of the walk
      have hmade : ∀ n ∈ names, (n ∈ without names g.interface.name →
          Makes (walk loader (without names g.interface.name) (nested loader g ++ pending)) n) →
          Makes (g :: walk loader (without names g.interface.name)
            (nested loader g ++ pending)) n := by
        intro n hn hrest
        by_cases heq : n = g.interface.name
        · exact ⟨g, List.mem_cons_self, heq.symm⟩
        · obtain ⟨x, hx, hxname⟩ := hrest (mem_without.mpr ⟨hn, heq⟩)
          exact ⟨x, List.mem_cons_of_mem _ hx, hxname⟩
      refine ⟨?_, ?_⟩
      · intro x hx hxname
        refine hmade _ hxname fun hleft => ?_
        rcases List.mem_cons.mp hx with rfl | hx
        · exact absurd rfl (mem_without.mp hleft).2
        · exact ihpending x (List.mem_append_right _ hx) hleft
      · intro y hy x hx hxname
        refine hmade _ hxname fun hleft => ?_
        rcases List.mem_cons.mp hy with rfl | hy
        · exact ihpending x (List.mem_append_left _ hx) hleft
        · exact ihnested y hy x hx hleft
  | case3 names g pending hname ih =>
      obtain ⟨ihpending, ihnested⟩ := ih
      refine ⟨?_, ihnested⟩
      intro x hx hxname
      rcases List.mem_cons.mp hx with rfl | hx
      · exact absurd hxname hname
      · exact ihpending x hx hxname

/-! ### Each group stands behind one that leads to it -/

private theorem pending_or_nested_of_walk (names : List QualifiedName)
    (pending : List MappingGroup) :
    ∀ {before : List MappingGroup} {x : MappingGroup} {after : List MappingGroup},
      walk loader names pending = before ++ x :: after →
        x ∈ pending ∨ ∃ g ∈ before, x ∈ nested loader g := by
  fun_induction walk loader names pending with
  | case1 names => intro before x after h; simp at h
  | case2 names g pending hname ih =>
      intro before x after h
      cases before with
      | nil =>
          obtain ⟨rfl, -⟩ := List.cons.inj h
          exact Or.inl List.mem_cons_self
      | cons g' before =>
          obtain ⟨rfl, hrest⟩ := List.cons.inj h
          rcases ih hrest with hx | ⟨y, hy, hx⟩
          · rcases List.mem_append.mp hx with hx | hx
            · exact Or.inr ⟨g, List.mem_cons_self, hx⟩
            · exact Or.inl (List.mem_cons_of_mem _ hx)
          · exact Or.inr ⟨y, List.mem_cons_of_mem _ hy, hx⟩
  | case3 names g pending hname ih =>
      intro before x after h
      rcases ih h with hx | hx
      · exact Or.inl (List.mem_cons_of_mem _ hx)
      · exact Or.inr hx

/-! ### The recursion without an index

`Visits` is a relation, since nothing bounds the recursion while no index is known.  It has one
outcome at most, and the walk shows that it has one.
-/

/-- Goes through groups one by one, and through those nested in a group before the next, and
keeps nothing but the names it has met; it makes the groups whose names are new. -/
inductive Visits (loader : ClassLoader) : List QualifiedName → List MappingGroup →
    List QualifiedName → List MappingGroup → Prop where
  | done (met : List QualifiedName) : Visits loader met [] met []
  | again {g : MappingGroup} {rest : List MappingGroup} {met met' : List QualifiedName}
      {made : List MappingGroup} (hmet : g.interface.name ∈ met)
      (hrest : Visits loader met rest met' made) : Visits loader met (g :: rest) met' made
  | new {g : MappingGroup} {rest : List MappingGroup} {met between met' : List QualifiedName}
      {inner made : List MappingGroup} (hnew : g.interface.name ∉ met)
      (hinner : Visits loader (g.interface.name :: met) (nested loader g) between inner)
      (hrest : Visits loader between rest met' made) :
      Visits loader met (g :: rest) met' (g :: (inner ++ made))

/-- `Visits` goes through one row behind another as through both. -/
theorem visits_append {a b : List MappingGroup} : ∀ {met met' : List QualifiedName}
    {made : List MappingGroup}, Visits loader met (a ++ b) met' made →
      ∃ between first second, Visits loader met a between first ∧
        Visits loader between b met' second ∧ made = first ++ second := by
  induction a with
  | nil => intro met met' made h; exact ⟨met, [], made, .done met, h, rfl⟩
  | cons g rest ih =>
      intro met met' made h
      cases h with
      | again hmet hrest =>
          obtain ⟨between, first, second, hfirst, hsecond, rfl⟩ := ih hrest
          exact ⟨between, first, second, .again hmet hfirst, hsecond, rfl⟩
      | @new _ _ _ _ _ inner made hnew hinner hrest =>
          obtain ⟨between, first, second, hfirst, hsecond, rfl⟩ := ih hrest
          exact ⟨between, g :: (inner ++ first), second, .new hnew hinner hfirst, hsecond,
            by simp⟩

/-- `Visits` has one outcome at most. -/
theorem Visits.unique {met pending a b : _} {made made' : List MappingGroup}
    (h : Visits loader met pending a made) (h' : Visits loader met pending b made') :
    a = b ∧ made = made' := by
  induction h generalizing b made' with
  | done met =>
      cases h'
      exact ⟨rfl, rfl⟩
  | again hmet hrest ih =>
      cases h' with
      | again _ hrest' => exact ih hrest'
      | new hnew _ _ => exact absurd hmet hnew
  | new hnew hinner hrest ihinner ihrest =>
      cases h' with
      | again hmet _ => exact absurd hmet hnew
      | new _ hinner' hrest' =>
          obtain ⟨rfl, rfl⟩ := ihinner hinner'
          obtain ⟨rfl, rfl⟩ := ihrest hrest'
          exact ⟨rfl, rfl⟩

/-- While the names in the index are those not met yet, `walk` makes what `Visits` makes. -/
theorem visits_walk {index : List QualifiedName}
    (hindex : ∀ {name : QualifiedName} {c : LoadedClass}, loader name = .ok c → c.name ∈ index)
    (names : List QualifiedName) (pending : List MappingGroup) :
    ∀ {met : List QualifiedName}, (∀ n ∈ index, n ∈ names ↔ n ∉ met) →
      (∀ g ∈ pending, g.interface.name ∈ index) →
        ∃ met', Visits loader met pending met' (walk loader names pending) := by
  fun_induction walk loader names pending with
  | case1 names => intro met _ _; exact ⟨met, .done met⟩
  | case2 names g pending hname ih =>
      intro met hleft hpending
      have hg : g.interface.name ∈ index := hpending g List.mem_cons_self
      have hnested : ∀ x ∈ nested loader g ++ pending, x.interface.name ∈ index := by
        intro x hx
        rcases List.mem_append.mp hx with hx | hx
        · obtain ⟨m, -, ⟨name, -, hload, -⟩, -⟩ := mem_nested_iff.mp hx
          exact hindex hload
        · exact hpending x (List.mem_cons_of_mem _ hx)
      have hleft' : ∀ n ∈ index, n ∈ without names g.interface.name ↔
          n ∉ g.interface.name :: met := by
        intro n hn
        rw [mem_without, hleft n hn, List.mem_cons, not_or, and_comm]
      obtain ⟨met', hvisits⟩ := ih hleft' hnested
      obtain ⟨between, inner, rest, hinner, hrest, hmade⟩ := visits_append hvisits
      rw [hmade]
      exact ⟨met', .new ((hleft _ hg).mp hname) hinner hrest⟩
  | case3 names g pending hname ih =>
      intro met hleft hpending
      have hg : g.interface.name ∈ index := hpending g List.mem_cons_self
      have hmet : g.interface.name ∈ met := by
        by_contra hnew
        exact hname ((hleft _ hg).mpr hnew)
      obtain ⟨met', hvisits⟩ := ih hleft fun x hx => hpending x (List.mem_cons_of_mem _ hx)
      exact ⟨met', .again hmet hvisits⟩

/-! ### The groups of a mapping

`Reaches` puts the facts on the walk together: which group is first, that no interface comes
twice, and that what methods return is there as well.
-/

/-- The groups are those that can be reached from an interface under a prefix. -/
structure Reaches (loader : ClassLoader) (root : LoadedClass) (keyPrefix : String)
    (groups : List MappingGroup) : Prop where
  /-- The recursion that knows no index, `Visits`, ends, and only in these groups. -/
  ends : ∀ made, (∃ met, Visits loader [] [⟨root, keyPrefix⟩] met made) ↔ made = groups
  /-- The interface's own group comes first. -/
  first : groups.head? = some ⟨root, keyPrefix⟩
  /-- No interface has two groups. -/
  interfaces : (groups.map (·.implementation.interface)).Nodup
  /-- So no two of the generated classes have one name. -/
  classes : (groups.map (·.implementation.className)).Nodup
  /-- The interfaces that have a group are those to which methods lead, step by step. -/
  reached : ∀ c, c ∈ groups.map (·.interface) ↔
    Relation.ReflTransGen (LoadedClass.LeadsTo loader) root c
  /-- Each other group goes on from the prefix of an earlier one with a method that returns
  its interface. -/
  prefixed : ∀ before x after, groups = before ++ x :: after → before ≠ [] →
    ∃ g ∈ before, ∃ m ∈ g.interface.methods, m.Returns loader x.interface ∧
      x.keyPrefix = if g.keyPrefix = "" then m.name else g.keyPrefix ++ "." ++ m.name

theorem nodup_ofMapping (names : List QualifiedName) (loader : ClassLoader) (root : LoadedClass)
    (keyPrefix : String) :
    ((ofMapping names loader root keyPrefix).map (·.interface.name)).Nodup :=
  nodup_walk _ _

theorem start_mem_ofMapping (names : List QualifiedName) (loader : ClassLoader)
    (root : LoadedClass) (keyPrefix : String) :
    ⟨root, keyPrefix⟩ ∈ ofMapping names loader root keyPrefix := by
  obtain ⟨rest, hfirst⟩ := ofMapping_eq_cons names loader root keyPrefix
  rw [hfirst]
  exact List.mem_cons_self

variable {names : List QualifiedName} {root : LoadedClass} {keyPrefix : String}

theorem loader_of_mem_ofMapping (hnames : NamesClasses loader)
    (hroot : loader root.name = .ok root) :
    ∀ g ∈ ofMapping names loader root keyPrefix,
      loader g.interface.name = .ok g.interface := by
  refine loader_of_mem_walk hnames _ _ ?_
  intro g hg
  rw [List.mem_singleton.mp hg]
  exact hroot

/-- `ofMapping` has no group that methods do not lead to. -/
theorem comesTo_of_mem_ofMapping :
    ∀ g ∈ ofMapping names loader root keyPrefix, ComesTo loader ⟨root, keyPrefix⟩ g := by
  refine walk_holds (P := ComesTo loader ⟨root, keyPrefix⟩) ?_ _ _ ?_
  · intro g hg x hx
    exact hg.tail hx
  · intro g hg
    rw [List.mem_singleton.mp hg]
    exact Relation.ReflTransGen.refl

/-- Whatever is `nested` in a group of a mapping has a group of the mapping for its interface. -/
theorem exists_group_of_mem_nested (hnames : NamesClasses loader)
    (hlisted : ∀ {name c}, loader name = .ok c → c.name ∈ names)
    (hroot : loader root.name = .ok root) {g x : MappingGroup}
    (hg : g ∈ ofMapping names loader root keyPrefix) (hx : x ∈ nested loader g) :
    ∃ y ∈ ofMapping names loader root keyPrefix, y.interface = x.interface := by
  obtain ⟨m, -, ⟨name, -, hload, -⟩, -⟩ := mem_nested_iff.mp hx
  have hlisted : x.interface.name ∈ root.name :: names :=
    List.mem_cons_of_mem _ (hlisted hload)
  obtain ⟨y, hy, hname⟩ := (walk_makes (root.name :: names) _).2 g hg x hx hlisted
  refine ⟨y, hy, ?_⟩
  have hyload := loader_of_mem_ofMapping hnames hroot y hy
  rw [hname, hnames hload, hload] at hyload
  exact (Except.ok.inj hyload).symm

/-- `Visits` ends in the groups of the mapping, when the index has the names of all classes that
the loader gives. -/
theorem visits_iff_eq_ofMapping
    (hlisted : ∀ {name c}, loader name = .ok c → c.name ∈ names) {made : List MappingGroup} :
    (∃ met, Visits loader [] [⟨root, keyPrefix⟩] met made) ↔
      made = ofMapping names loader root keyPrefix := by
  have hlisted : ∀ {name c}, loader name = .ok c → c.name ∈ root.name :: names :=
    fun hload => List.mem_cons_of_mem _ (hlisted hload)
  obtain ⟨met', hvisits⟩ : ∃ met, Visits loader [] [⟨root, keyPrefix⟩] met
      (ofMapping names loader root keyPrefix) :=
    visits_walk hlisted _ _ (by simp) (by simp)
  refine ⟨?_, ?_⟩
  · intro hmade
    obtain ⟨met, hmade⟩ := hmade
    exact (hmade.unique hvisits).2
  · intro heq
    exact ⟨met', heq ▸ hvisits⟩

theorem nodup_className_ofMapping (names : List QualifiedName) (loader : ClassLoader)
    (root : LoadedClass) (keyPrefix : String) :
    ((ofMapping names loader root keyPrefix).map (·.implementation.className)).Nodup := by
  have hclasses : (ofMapping names loader root keyPrefix).map (·.implementation.className) =
      ((ofMapping names loader root keyPrefix).map (·.interface.name)).map
        fun n => n.text ++ implementationSuffix := by
    rw [List.map_map]
    rfl
  rw [hclasses]
  refine (nodup_ofMapping names loader root keyPrefix).map fun a b h => ?_
  exact QualifiedName.text_inj.mp ((String.append_left_inj implementationSuffix).mp h)

/-- The interfaces of a mapping's groups are closed under what methods return, and hold
nothing else than the first one leads to. -/
theorem mem_interfaces_ofMapping_iff (hnames : NamesClasses loader)
    (hlisted : ∀ {name c}, loader name = .ok c → c.name ∈ names)
    (hroot : loader root.name = .ok root) {c : LoadedClass} :
    c ∈ (ofMapping names loader root keyPrefix).map (·.interface) ↔
      Relation.ReflTransGen (LoadedClass.LeadsTo loader) root c := by
  refine ⟨?_, ?_⟩
  · intro hc
    obtain ⟨g, hg, rfl⟩ := List.mem_map.mp hc
    exact (comesTo_of_mem_ofMapping g hg).lift (·.interface) fun _ _ => leadsTo_of_mem_nested
  · intro hc
    induction hc with
    | refl => exact List.mem_map.mpr ⟨_, start_mem_ofMapping names loader root keyPrefix, rfl⟩
    | tail _ hleads ih =>
        obtain ⟨g, hg, rfl⟩ := List.mem_map.mp ih
        obtain ⟨x, hx, rfl⟩ := exists_mem_nested_of_leadsTo hleads
        obtain ⟨y, hy, heq⟩ := exists_group_of_mem_nested hnames hlisted hroot hg hx
        exact List.mem_map.mpr ⟨y, hy, heq⟩

/-- Each group of a mapping but the first is `nested` in one that stands in front of it. -/
theorem nested_of_ofMapping_eq {before : List MappingGroup} {x : MappingGroup}
    {after : List MappingGroup}
    (hgroups : ofMapping names loader root keyPrefix = before ++ x :: after)
    (hbefore : before ≠ []) : ∃ g ∈ before, x ∈ nested loader g := by
  rcases pending_or_nested_of_walk _ _ hgroups with hx | hx
  · -- the first group is the only one of its interface, and it stands in front of this one
    obtain ⟨rest, hfirst⟩ := ofMapping_eq_cons names loader root keyPrefix
    have hdistinct := nodup_ofMapping names loader root keyPrefix
    rw [hgroups, List.mem_singleton.mp hx] at hdistinct
    cases before with
    | nil => exact absurd rfl hbefore
    | cons g before =>
        obtain ⟨rfl, -⟩ := List.cons.inj (hfirst.symm.trans hgroups)
        simp at hdistinct
  · exact hx

/-- `ofMapping` on a loaded interface gives the groups that can be reached. -/
theorem reaches_ofMapping (hnames : NamesClasses loader)
    (hlisted : ∀ {name c}, loader name = .ok c → c.name ∈ names)
    (hroot : loader root.name = .ok root) :
    Reaches loader root keyPrefix (ofMapping names loader root keyPrefix) where
  ends _ := visits_iff_eq_ofMapping hlisted
  first := by
    obtain ⟨rest, hfirst⟩ := ofMapping_eq_cons names loader root keyPrefix
    rw [hfirst, List.head?_cons]
  interfaces := nodup_ofMapping names loader root keyPrefix
  classes := nodup_className_ofMapping names loader root keyPrefix
  reached _ := mem_interfaces_ofMapping_iff hnames hlisted hroot
  prefixed := by
    intro before x after hgroups hbefore
    obtain ⟨g, hg, hx⟩ := nested_of_ofMapping_eq hgroups hbefore
    obtain ⟨m, hm, hreturns, hprefix⟩ := mem_nested_iff.mp hx
    exact ⟨g, hg, m, hm, hreturns, hprefix⟩

end MappingGroup

/-! ### The implementations of a mapping

A loader that refuses some names gives the others as before, so whatever it gives is listed and
has its own name.  That is what the statements above ask of a loader, by `NamesClasses`.
-/

namespace Snapshot

/-- The loader of a snapshot that refuses some names. -/
def refusingLoader (s : Snapshot) (refused : QualifiedName → Option String) : ClassLoader :=
  s.source.loader.refusing refused

variable {s : Snapshot} {refused : QualifiedName → Option String}

theorem loader_of_refusingLoader {name : QualifiedName} {c : LoadedClass}
    (h : s.refusingLoader refused name = .ok c) : s.source.loader name = .ok c := by
  unfold refusingLoader ClassLoader.refusing at h
  cases hrefused : refused name with
  | some reason => simp [hrefused] at h
  | none => simpa only [hrefused] using h

theorem namesClasses_refusingLoader (s : Snapshot) (refused : QualifiedName → Option String) :
    MappingGroup.NamesClasses (s.refusingLoader refused) := by
  intro name c h
  exact s.namesClasses_loader (loader_of_refusingLoader h)

/-- A class that loads is listed. -/
theorem name_mem_of_refusingLoader {name : QualifiedName} {c : LoadedClass}
    (h : s.refusingLoader refused name = .ok c) : c.name ∈ s.classes.map (·.name) := by
  have hload := loader_of_refusingLoader h
  rw [MetadataSource.loader] at hload
  cases hentry : s.source.classEntry? name with
  | none => simp [hentry] at hload
  | some entry =>
      simp only [hentry, Except.ok.injEq] at hload
      rw [← hload]
      have hlisted := mem_classes_of_classEntry? hentry
      exact List.mem_map.mpr ⟨entry, hlisted.1, rfl⟩

/-- A class that loads loads under its own name. -/
theorem loads_by_name {name : QualifiedName} {c : LoadedClass}
    (h : s.refusingLoader refused name = .ok c) : s.refusingLoader refused c.name = .ok c := by
  rw [s.namesClasses_refusingLoader refused h, h]

/-- **The emitter of manifests makes an implementation for each interface that can be
reached, and for no other.**  Interfaces may return one another or themselves, classes may
be listed twice, and the loader may refuse any of them. -/
theorem manifests_reach (s : Snapshot) (refused : QualifiedName → Option String)
    {name : QualifiedName} {root : LoadedClass} (keyPrefix : String)
    (hroot : s.refusingLoader refused name = .ok root) :
    ∃ groups, manifestEmitter (s.classes.map (·.name)) (s.refusingLoader refused) root keyPrefix =
        .ok (groups.map MappingGroup.implementation) ∧
      MappingGroup.Reaches (s.refusingLoader refused) root keyPrefix groups :=
  ⟨_, rfl, MappingGroup.reaches_ofMapping (s.namesClasses_refusingLoader refused)
    name_mem_of_refusingLoader (loads_by_name hroot)⟩

/-- An interface that returns itself twice, a leaf, an array of leaves, a class that is no
interface and one that does not load. -/
def nodeInterface : LoadedClass where
  name := ⟨"app.Node"⟩
  isInterface := true
  methods := [⟨"left", .named ⟨"app.Node"⟩⟩, ⟨"gone", .named ⟨"app.Gone"⟩⟩,
    ⟨"leaf", .named ⟨"app.Leaf"⟩⟩, ⟨"right", .named ⟨"app.Node"⟩⟩,
    ⟨"leaves", .array (.named ⟨"app.Leaf"⟩)⟩, ⟨"text", .named ⟨"app.Text"⟩⟩]

/-- The classes of a tree of nodes and leaves, nodes listed twice. -/
def tree : Snapshot where
  classes :=
    [⟨nodeInterface.name, none, true, nodeInterface.methods⟩,
      ⟨⟨"app.Leaf"⟩, none, true, [⟨"up", .named ⟨"app.Node"⟩⟩]⟩,
      ⟨⟨"app.Text"⟩, none, false, []⟩, ⟨⟨"app.Gone"⟩, none, true, []⟩,
      ⟨nodeInterface.name, none, false, []⟩]
  injectionPoints := []
  declarations := []
  configRoots := []

/-- The loader of `tree` refuses one of its interfaces. -/
def withoutGone (name : QualifiedName) : Option String :=
  if name = ⟨"app.Gone"⟩ then some "refused" else none

theorem manifests_reach_tree :
    tree.refusingLoader withoutGone nodeInterface.name = .ok nodeInterface ∧
      ∃ groups, manifestEmitter (tree.classes.map (·.name)) (tree.refusingLoader withoutGone)
          nodeInterface "" = .ok (groups.map MappingGroup.implementation) ∧
        MappingGroup.Reaches (tree.refusingLoader withoutGone) nodeInterface "" groups :=
  have hroot : tree.refusingLoader withoutGone nodeInterface.name = .ok nodeInterface := rfl
  ⟨hroot, manifests_reach tree withoutGone "" hroot⟩

end Snapshot

end ConfigBinder
