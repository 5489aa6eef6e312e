/-
When generated classes of one name agree.

A generated class is named for its interface (`className_implementation_inj`), and its bytes
tell the prefix as well (`bytes_implementation_inj`).  One mapping has one group of an
interface at most, so its own classes never clash.  Two mappings that come to the same
interface each make a class of the same name, and the classes agree only when both come to it
under one prefix.  A server and a client with the same settings of a connection do not: each
has them under its own key, as `sharing` shows.
-/
import ConfigBinder.Proofs.Binding.Failure
import ConfigBinder.Proofs.Binding.Groups

namespace ConfigBinder.Snapshot

variable {s : Snapshot} {settings : Settings} {o : BuildOutput}

theorem mem_generated_of_run (hrun : (s.context settings).run = .ok o) {x : GeneratedClass} :
    x ∈ o.items.generated ↔ ∃ m ∈ s.mappings settings, ∃ g ∈ s.groupsOf m,
      x = ConfigMapping.generated g.implementation := by
  obtain ⟨found, added, -, hg, rfl⟩ := BindingContext.run_eq_ok_iff.mp hrun
  have hmem : x ∈ added.generated ↔ _ := mem_generate (·.generated) rfl (fun _ _ => rfl) hg
  show x ∈ added.generated ↔ _
  rw [hmem]
  refine exists_congr fun m => and_congr_right fun _ => ?_
  show x ∈ ((s.groupsOf m).map _).map _ ↔ _
  rw [List.map_map, List.mem_map]
  refine exists_congr fun g => and_congr_right fun _ => ?_
  exact eq_comm

/-- Two groups of mappings that have one interface have it with the same methods. -/
theorem interface_eq_of_name_eq {m n : QualifiedName × String} {g h : MappingGroup}
    (hg : g ∈ s.groupsOf m) (hh : h ∈ s.groupsOf n)
    (hname : g.interface.name = h.interface.name) : g.interface = h.interface := by
  have hgload := loader_of_mem_groupsOf hg
  rw [hname, loader_of_mem_groupsOf hh] at hgload
  exact (Except.ok.inj hgload).symm

/-- The implementations of two groups clash when the groups have one interface under two
prefixes. -/
theorem generated_clash_iff {m n : QualifiedName × String} {g h : MappingGroup}
    (hg : g ∈ s.groupsOf m) (hh : h ∈ s.groupsOf n) :
    ((ConfigMapping.generated g.implementation).name =
          (ConfigMapping.generated h.implementation).name ∧
        (ConfigMapping.generated g.implementation).bytes ≠
          (ConfigMapping.generated h.implementation).bytes) ↔
      g.interface.name = h.interface.name ∧ g.keyPrefix ≠ h.keyPrefix := by
  simp only [ConfigMapping.generated]
  rw [MappingGroup.className_implementation_inj]
  refine and_congr_right fun hname => not_congr ?_
  rw [MappingGroup.bytes_implementation_inj, interface_eq_of_name_eq hg hh hname]
  simp

/-- An interface that mappings come to under two prefixes is generated with two contents. -/
theorem exists_clash_of_run (hrun : (s.context settings).run = .ok o)
    {m n : QualifiedName × String} (hm : m ∈ s.mappings settings) (hn : n ∈ s.mappings settings)
    {g h : MappingGroup} (hg : g ∈ s.groupsOf m) (hh : h ∈ s.groupsOf n)
    (hname : g.interface.name = h.interface.name) (hkeys : g.keyPrefix ≠ h.keyPrefix) :
    ∃ a ∈ o.items.generated, ∃ b ∈ o.items.generated, a.name = b.name ∧ a.bytes ≠ b.bytes := by
  obtain ⟨hclass, hbytes⟩ := (generated_clash_iff hg hh).mpr ⟨hname, hkeys⟩
  have hgmem := (mem_generated_of_run hrun).mpr ⟨m, hm, g, hg, rfl⟩
  have hhmem := (mem_generated_of_run hrun).mpr ⟨n, hn, h, hh, rfl⟩
  exact ⟨_, hgmem, _, hhmem, hclass, hbytes⟩

/-- **Generated classes of one name have the same bytes just when no interface is come to
under two prefixes**, by whatever declarations and however deep inside them.  The groups
of one mapping have interfaces of their own each, so it takes two mappings to clash. -/
theorem generated_agree_iff (hrun : (s.context settings).run = .ok o) :
    ((∀ a ∈ o.items.generated, ∀ b ∈ o.items.generated, a.name = b.name → a.bytes = b.bytes) ↔
        ∀ m ∈ s.mappings settings, ∀ n ∈ s.mappings settings,
          ∀ g ∈ s.groupsOf m, ∀ h ∈ s.groupsOf n,
            g.interface.name = h.interface.name → g.keyPrefix = h.keyPrefix) ∧
      ∀ m ∈ s.mappings settings, ((s.groupsOf m).map (·.interface.name)).Nodup := by
  refine ⟨⟨?_, ?_⟩, fun m _ => nodup_groupsOf m⟩
  · intro hagree m hm n hn g hg h hh hname
    by_contra hkeys
    obtain ⟨a, ha, b, hb, hclass, hbytes⟩ := exists_clash_of_run hrun hm hn hg hh hname hkeys
    exact hbytes (hagree a ha b hb hclass)
  · intro hall a ha b hb hclass
    obtain ⟨m, hm, g, hg, rfl⟩ := (mem_generated_of_run hrun).mp ha
    obtain ⟨n, hn, h, hh, rfl⟩ := (mem_generated_of_run hrun).mp hb
    by_contra hbytes
    obtain ⟨hname, hkeys⟩ := (generated_clash_iff hg hh).mp ⟨hclass, hbytes⟩
    exact hkeys (hall m hm n hn g hg h hh hname)

/-- The interface that both mappings of `sharing` lead to. -/
def tlsInterface : LoadedClass := ⟨⟨"app.Tls"⟩, true, [⟨"enabled", .primitive .boolean⟩]⟩

/-- An interface that leads to `tlsInterface` twice. -/
def serverInterface : LoadedClass :=
  ⟨⟨"app.Server"⟩, true, [⟨"tls", .named tlsInterface.name⟩, ⟨"old", .named tlsInterface.name⟩]⟩

/-- An interface that leads to `tlsInterface` once. -/
def clientInterface : LoadedClass := ⟨⟨"app.Client"⟩, true, [⟨"tls", .named tlsInterface.name⟩]⟩

/-- The mappings of `serverInterface` and `clientInterface`, under a prefix each. -/
def sharing (first second : String) : Snapshot where
  classes := [serverInterface, clientInterface, tlsInterface].map fun c =>
    ⟨c.name, none, c.isInterface, c.methods⟩
  injectionPoints := []
  declarations := [(serverInterface, first), (clientInterface, second)].map fun m =>
    ⟨⟨Settings.default.mappingAnnotation, .ofList [("prefix", m.2)]⟩, .onClass m.1.name⟩
  configRoots := []

private theorem run_sharing (first second : String) :
    ∃ o, ((sharing first second).context .default).run = .ok o := by
  refine run_succeeds_iff.mpr ⟨by simp [sharing], ?_⟩
  intro d hd name hmissing
  obtain ⟨-, htarget, hnone⟩ := hmissing
  obtain ⟨m, hm, rfl⟩ := List.mem_map.mp hd
  obtain rfl := DeclarationTarget.onClass.inj htarget
  rcases List.mem_pair.mp hm with rfl | rfl
  all_goals simp [sharing] at hnone

private theorem mappings_sharing (first second : String) :
    (sharing first second).mappings .default =
      [(serverInterface.name, first), (clientInterface.name, second)] := by
  simp [mappings, declared_eq_filterMap, sharing, bound?, ConfigMapping.statedPrefix,
    Annotation.value?, OrderedMap.ofList, OrderedMap.get?_insert_self]

theorem groupsOf_sharing (first second keyPrefix : String) {c : LoadedClass}
    (hc : c = serverInterface ∨ c = clientInterface) :
    (sharing first second).groupsOf (c.name, keyPrefix) =
      [⟨c, keyPrefix⟩, ⟨tlsInterface, MappingGroup.nestedPrefix keyPrefix "tls"⟩] := by
  have hserver : (sharing first second).source.loader ⟨"app.Server"⟩ = .ok serverInterface := rfl
  have hclient : (sharing first second).source.loader ⟨"app.Client"⟩ = .ok clientInterface := rfl
  have hconnection : (sharing first second).source.loader ⟨"app.Tls"⟩ = .ok tlsInterface := rfl
  have hnames : (sharing first second).classes.map (·.name) =
      [serverInterface.name, clientInterface.name, tlsInterface.name] := rfl
  rcases hc with rfl | rfl
  all_goals
    simp [groupsOf, hserver, hclient, hconnection, hnames, MappingGroup.ofMapping,
      MappingGroup.walk, MappingGroup.nested, MappingGroup.nestedInterface?,
      MappingGroup.without, serverInterface, clientInterface, tlsInterface]

/-- Under one prefix both mappings come to the third interface by the same key. -/
theorem sharing_agrees :
    ∃ o, ((sharing "app" "app").context .default).run = .ok o ∧
      ∀ a ∈ o.items.generated, ∀ b ∈ o.items.generated, a.name = b.name → a.bytes = b.bytes := by
  obtain ⟨o, hrun⟩ := run_sharing "app" "app"
  refine ⟨o, hrun, (generated_agree_iff hrun).1.mpr ?_⟩
  have hserver := groupsOf_sharing "app" "app" "app" (Or.inl rfl)
  have hclient := groupsOf_sharing "app" "app" "app" (Or.inr rfl)
  simp only [mappings_sharing, List.forall_mem_cons, hserver, hclient]
  simp [serverInterface, clientInterface, tlsInterface]

/-- Under two prefixes the class of the third interface is generated twice, with two
contents. -/
theorem sharing_clashes :
    ∃ o, ((sharing "server" "client").context .default).run = .ok o ∧
      ∃ a ∈ o.items.generated, ∃ b ∈ o.items.generated, a.name = b.name ∧ a.bytes ≠ b.bytes := by
  obtain ⟨o, hrun⟩ := run_sharing "server" "client"
  have hserver : ⟨tlsInterface, MappingGroup.nestedPrefix "server" "tls"⟩ ∈
      (sharing "server" "client").groupsOf (serverInterface.name, "server") := by
    simp [groupsOf_sharing _ _ _ (Or.inl rfl)]
  have hclient : ⟨tlsInterface, MappingGroup.nestedPrefix "client" "tls"⟩ ∈
      (sharing "server" "client").groupsOf (clientInterface.name, "client") := by
    simp [groupsOf_sharing _ _ _ (Or.inr rfl)]
  exact ⟨o, hrun, exists_clash_of_run hrun (by simp [mappings_sharing])
    (by simp [mappings_sharing]) hserver hclient rfl (by decide)⟩

end ConfigBinder.Snapshot
