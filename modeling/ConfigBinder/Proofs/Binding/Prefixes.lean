/-
The prefixes under which nested interfaces are bound.

The walk over nested interfaces goes by the names of interfaces, and an implementation is
bound by the path of methods to it.  When two paths come to one interface, the walk makes a
group for the first and passes by the second, though nothing goes round in a circle.  So
`BindsMethods` holds of the groups of a mapping just when each interface is come to under one
prefix, `SinglePrefixes`.  A server whose `tls` and `old` both return the settings of a
connection has an implementation for `server.tls` and none for `server.old`.
-/
import ConfigBinder.Proofs.Binding.Generated
import ConfigBinder.Proofs.Binding.Reach

namespace ConfigBinder

/-- No interface that can be reached leads back to itself. -/
def LoadedClass.NoCycleFrom (loader : ClassLoader) (root : LoadedClass) : Prop :=
  ∀ c, Relation.ReflTransGen (LoadedClass.LeadsTo loader) root c →
    ¬ Relation.TransGen (LoadedClass.LeadsTo loader) c c

namespace MappingGroup

/-- Each method of a group that returns an interface has a group for it under its own key. -/
def BindsMethods (loader : ClassLoader) (groups : List MappingGroup) : Prop :=
  ∀ g ∈ groups, ∀ m ∈ g.interface.methods, ∀ h, m.Returns loader h →
    ⟨h, if g.keyPrefix = "" then m.name else g.keyPrefix ++ "." ++ m.name⟩ ∈ groups

/-- All paths of methods from a group to an interface give it one prefix. -/
def SinglePrefixes (loader : ClassLoader) (start : MappingGroup) : Prop :=
  ∀ x y, ComesTo loader start x → ComesTo loader start y →
    x.interface = y.interface → x.keyPrefix = y.keyPrefix

variable {loader : ClassLoader} {groups : List MappingGroup} {start : MappingGroup}

theorem bindsMethods_iff_nested :
    BindsMethods loader groups ↔ ∀ g ∈ groups, ∀ x ∈ nested loader g, x ∈ groups := by
  refine forall_congr' fun g => imp_congr_right fun _ => ⟨?_, ?_⟩
  · intro hbinds x hx
    obtain ⟨m, hm, hreturns, hprefix⟩ := mem_nested_iff.mp hx
    have hbound : ⟨x.interface, nestedPrefix g.keyPrefix m.name⟩ ∈ groups :=
      hbinds m hm x.interface hreturns
    rwa [← hprefix] at hbound
  · intro hclosed m hm h hreturns
    exact hclosed _ (mem_nested_iff.mpr ⟨m, hm, hreturns, rfl⟩)

/-- Where `BindsMethods` holds, a group stands for each path of methods (`ComesTo`). -/
theorem mem_of_comesTo (hbinds : BindsMethods loader groups) (hstart : start ∈ groups)
    {x : MappingGroup} (hx : ComesTo loader start x) : x ∈ groups := by
  induction hx with
  | refl => exact hstart
  | tail _ hnested ih => exact bindsMethods_iff_nested.mp hbinds _ ih _ hnested

variable {names : List QualifiedName} {root : LoadedClass} {keyPrefix : String}

theorem eq_of_interface_eq {x y : MappingGroup}
    (hx : x ∈ ofMapping names loader root keyPrefix)
    (hy : y ∈ ofMapping names loader root keyPrefix) (heq : x.interface = y.interface) :
    x = y :=
  List.inj_on_of_nodup_map (nodup_ofMapping names loader root keyPrefix) hx hy
    (congrArg LoadedClass.name heq)

/-- `BindsMethods` holds of the groups of a mapping when they are those that paths come to, and
only then. -/
theorem bindsMethods_iff_comesTo :
    BindsMethods loader (ofMapping names loader root keyPrefix) ↔
      ∀ x, x ∈ ofMapping names loader root keyPrefix ↔ ComesTo loader ⟨root, keyPrefix⟩ x := by
  refine ⟨?_, ?_⟩
  · intro hbinds x
    exact ⟨comesTo_of_mem_ofMapping x, mem_of_comesTo hbinds (start_mem_ofMapping _ _ _ _)⟩
  · intro hpaths
    refine bindsMethods_iff_nested.mpr ?_
    intro g hg x hx
    exact (hpaths x).mpr (((hpaths g).mp hg).tail hx)

/-- Any group of a mapping has one group, and no other, for the interface of each group `nested` in
it, and some path comes to that one. -/
theorem exists_only_group_of_mem_nested (hnames : NamesClasses loader)
    (hlisted : ∀ {name c}, loader name = .ok c → c.name ∈ names)
    (hroot : loader root.name = .ok root) {g x : MappingGroup}
    (hg : g ∈ ofMapping names loader root keyPrefix) (hx : x ∈ nested loader g) :
    ∃ y ∈ ofMapping names loader root keyPrefix, y.interface = x.interface ∧
      (∀ z ∈ ofMapping names loader root keyPrefix, z.interface = x.interface → z = y) ∧
        ComesTo loader ⟨root, keyPrefix⟩ y := by
  obtain ⟨y, hy, heq⟩ := exists_group_of_mem_nested hnames hlisted hroot hg hx
  refine ⟨y, hy, heq, ?_, comesTo_of_mem_ofMapping y hy⟩
  intro z hz hinterface
  exact eq_of_interface_eq hz hy (hinterface.trans heq.symm)

/-- `BindsMethods` holds of the groups of a mapping when its paths have `SinglePrefixes`, and only
then. -/
theorem bindsMethods_iff_singlePrefixes (hnames : NamesClasses loader)
    (hlisted : ∀ {name c}, loader name = .ok c → c.name ∈ names)
    (hroot : loader root.name = .ok root) :
    BindsMethods loader (ofMapping names loader root keyPrefix) ↔
      SinglePrefixes loader ⟨root, keyPrefix⟩ := by
  refine ⟨?_, ?_⟩
  · intro hbinds x y hx hy heq
    have hpaths := bindsMethods_iff_comesTo.mp hbinds
    rw [eq_of_interface_eq ((hpaths x).mpr hx) ((hpaths y).mpr hy) heq]
  · intro hsingle
    refine bindsMethods_iff_nested.mpr ?_
    intro g hg x hx
    -- a path comes to the group made of the interface as well, so this one has its prefix
    obtain ⟨y, hy, heq, -, hpath⟩ := exists_only_group_of_mem_nested hnames hlisted hroot hg hx
    have hprefix := hsingle y x hpath ((comesTo_of_mem_ofMapping g hg).tail hx) heq
    obtain rfl : y = x := by
      cases y
      cases x
      exact congr (congrArg MappingGroup.mk heq) hprefix
    exact hy

end MappingGroup

namespace Snapshot

/-- **The methods that return interfaces are all bound under their own keys just when each
interface is come to under one prefix.**  Else a path of methods is left without an
implementation, cycle or none.  Whatever the prefixes, each interface that a bound interface
returns has one implementation, under the prefix of some path. -/
theorem binds_methods_iff (s : Snapshot) (refused : QualifiedName → Option String)
    {name : QualifiedName} {root : LoadedClass} (keyPrefix : String)
    (hroot : s.refusingLoader refused name = .ok root) :
    ∃ groups, manifestEmitter (s.classes.map (·.name)) (s.refusingLoader refused) root keyPrefix =
        .ok (groups.map MappingGroup.implementation) ∧
      (MappingGroup.BindsMethods (s.refusingLoader refused) groups ↔
        MappingGroup.SinglePrefixes (s.refusingLoader refused) ⟨root, keyPrefix⟩) ∧
      (MappingGroup.BindsMethods (s.refusingLoader refused) groups ↔
        ∀ x, x ∈ groups ↔ MappingGroup.ComesTo (s.refusingLoader refused) ⟨root, keyPrefix⟩ x) ∧
      ∀ g ∈ groups, ∀ m ∈ g.interface.methods, ∀ h, m.Returns (s.refusingLoader refused) h →
        ∃ x ∈ groups, x.interface = h ∧ (∀ y ∈ groups, y.interface = h → y = x) ∧
          MappingGroup.ComesTo (s.refusingLoader refused) ⟨root, keyPrefix⟩ x := by
  have hnames : MappingGroup.NamesClasses (s.refusingLoader refused) :=
    s.namesClasses_refusingLoader refused
  refine ⟨_, rfl, MappingGroup.bindsMethods_iff_singlePrefixes hnames name_mem_of_refusingLoader
    (loads_by_name hroot), MappingGroup.bindsMethods_iff_comesTo, ?_⟩
  intro g hg m hm h hreturns
  have hnested : ⟨h, MappingGroup.nestedPrefix g.keyPrefix m.name⟩ ∈
      MappingGroup.nested (s.refusingLoader refused) g :=
    MappingGroup.mem_nested_iff.mpr ⟨m, hm, hreturns, rfl⟩
  exact MappingGroup.exists_only_group_of_mem_nested hnames name_mem_of_refusingLoader
    (loads_by_name hroot) hg hnested

/-! ### A server and a client with the settings of a connection

The interfaces are those of `sharing`.  The client comes to the settings once and the server
twice, which is all the difference, for neither goes round in a circle.
-/

/-- The loader of `sharing`, which refuses nothing. -/
def sharingLoader : ClassLoader :=
  (sharing "server" "client").refusingLoader fun _ => none

private theorem nested_client (keyPrefix : String) :
    MappingGroup.nested sharingLoader ⟨clientInterface, keyPrefix⟩ =
      [⟨tlsInterface, MappingGroup.nestedPrefix keyPrefix "tls"⟩] := rfl

private theorem nested_server (keyPrefix : String) :
    MappingGroup.nested sharingLoader ⟨serverInterface, keyPrefix⟩ =
      [⟨tlsInterface, MappingGroup.nestedPrefix keyPrefix "tls"⟩,
        ⟨tlsInterface, MappingGroup.nestedPrefix keyPrefix "old"⟩] := rfl

private theorem nested_tls (keyPrefix : String) :
    MappingGroup.nested sharingLoader ⟨tlsInterface, keyPrefix⟩ = [] := rfl

/-- One path goes from the client to the connection. -/
theorem comesTo_client {x : MappingGroup}
    (hx : MappingGroup.ComesTo sharingLoader ⟨clientInterface, "client"⟩ x) :
    x = ⟨clientInterface, "client"⟩ ∨ x = ⟨tlsInterface, "client.tls"⟩ := by
  induction hx with
  | refl => exact Or.inl rfl
  | tail _ hnested ih =>
      rcases ih with rfl | rfl
      · rw [nested_client] at hnested
        exact Or.inr (List.mem_singleton.mp hnested)
      · simp [nested_tls] at hnested

/-- The client returns the settings of a connection once, so its method is bound. -/
theorem binds_methods_client :
    sharingLoader clientInterface.name = .ok clientInterface ∧
      ∃ groups, manifestEmitter ((sharing "server" "client").classes.map (·.name)) sharingLoader
          clientInterface "client" = .ok (groups.map MappingGroup.implementation) ∧
        MappingGroup.BindsMethods sharingLoader groups := by
  have hroot : sharingLoader clientInterface.name = .ok clientInterface := rfl
  obtain ⟨groups, hemit, hbinds, -, -⟩ := binds_methods_iff (sharing "server" "client")
    (fun _ => none) "client" hroot
  refine ⟨hroot, groups, hemit, hbinds.mpr ?_⟩
  intro x y hx hy heq
  rcases comesTo_client hx with rfl | rfl <;> rcases comesTo_client hy with rfl | rfl
  · rfl
  · exact absurd heq (by decide)
  · exact absurd heq (by decide)
  · rfl

private theorem not_leadsTo_of_tls (h : LoadedClass) :
    ¬ LoadedClass.LeadsTo sharingLoader tlsInterface h := by
  intro hleads
  obtain ⟨x, hx, -⟩ :=
    MappingGroup.exists_mem_nested_of_leadsTo (g := ⟨tlsInterface, ""⟩) hleads
  simp [nested_tls] at hx

private theorem eq_tls_of_leadsTo {h : LoadedClass}
    (hleads : LoadedClass.LeadsTo sharingLoader serverInterface h) : h = tlsInterface := by
  obtain ⟨x, hx, rfl⟩ :=
    MappingGroup.exists_mem_nested_of_leadsTo (g := ⟨serverInterface, ""⟩) hleads
  rw [nested_server] at hx
  rcases List.mem_pair.mp hx with rfl | rfl <;> rfl

private theorem noCycleFrom_server : LoadedClass.NoCycleFrom sharingLoader serverInterface := by
  intro c hc
  have hclass : c = serverInterface ∨ c = tlsInterface := by
    induction hc with
    | refl => exact Or.inl rfl
    | tail _ hleads ih =>
        rcases ih with rfl | rfl
        · exact Or.inr (eq_tls_of_leadsTo hleads)
        · exact absurd hleads (not_leadsTo_of_tls _)
  intro hcycle
  obtain ⟨d, hfirst, hback⟩ := Relation.TransGen.head'_iff.mp hcycle
  rcases hclass with rfl | rfl
  · obtain rfl := eq_tls_of_leadsTo hfirst
    rcases hback.cases_head with heq | ⟨e, hnext, -⟩
    · exact absurd heq (by decide)
    · exact not_leadsTo_of_tls e hnext
  · exact not_leadsTo_of_tls d hfirst

/-- The server returns the settings of a connection twice, and nothing goes round in a
circle; the second method has no implementation under its key. -/
theorem server_leaves_method :
    sharingLoader serverInterface.name = .ok serverInterface ∧
      LoadedClass.NoCycleFrom sharingLoader serverInterface ∧
      manifestEmitter ((sharing "server" "client").classes.map (·.name)) sharingLoader
          serverInterface "server" =
        .ok ([⟨serverInterface, "server"⟩, ⟨tlsInterface, "server.tls"⟩].map
          MappingGroup.implementation) ∧
      ¬ MappingGroup.BindsMethods sharingLoader
        [⟨serverInterface, "server"⟩, ⟨tlsInterface, "server.tls"⟩] := by
  refine ⟨rfl, noCycleFrom_server, ?_, ?_⟩
  · exact congrArg (fun groups => Except.ok (groups.map MappingGroup.implementation))
      (groupsOf_sharing "server" "client" "server" (Or.inl rfl))
  · intro hbinds
    have hbound := hbinds ⟨serverInterface, "server"⟩ List.mem_cons_self
      ⟨"old", .named tlsInterface.name⟩ (by decide) tlsInterface ⟨_, rfl, rfl, rfl⟩
    exact absurd hbound (by decide)

end Snapshot

end ConfigBinder
