/-
Manifests as implementations of mappings.

A mapping has a group for its interface and one for each interface that a group's
methods return.  The groups are walked depth first, a method at a time; an interface
makes one group, at the place where the walk first comes to it, under the key of the
method that led there.  The manifest of a group names its interface, its prefix and
its methods.
-/
import ConfigBinder.Binding.Mapping
import ConfigBinder.Json.Printer
import ConfigBinder.Text.Utf8

namespace ConfigBinder

/-- An interface bound to the keys under a prefix. -/
structure MappingGroup where
  interface : LoadedClass
  keyPrefix : String
  deriving DecidableEq

namespace MappingGroup

/-- The prefix of a group that a method leads to. -/
def nestedPrefix (keyPrefix method : String) : String :=
  if keyPrefix = "" then method else s!"{keyPrefix}.{method}"

/-- The interface that a method's return type leads to. -/
def nestedInterface? (loader : ClassLoader) : TypeRef → Option LoadedClass
  | .named name =>
    match loader name with
    | .ok c => if c.isInterface then some c else none
    | .error _ => none
  | _ => none

/-- The groups that the methods of a group lead to. -/
def nested (loader : ClassLoader) (g : MappingGroup) : List MappingGroup :=
  g.interface.methods.filterMap fun m =>
    (nestedInterface? loader m.returnType).map (⟨·, nestedPrefix g.keyPrefix m.name⟩)

/-- The names but one. -/
def without (names : List QualifiedName) (n : QualifiedName) : List QualifiedName :=
  names.filter fun m => m ≠ n

theorem length_without {names : List QualifiedName} {n : QualifiedName} (h : n ∈ names) :
    (without names n).length < names.length :=
  List.length_filter_lt_length_iff_exists.mpr ⟨n, h, by simp⟩

/-- Walks through pending groups, those inside a group before the ones behind it.
The names are those for which no group has been made. -/
def walk (loader : ClassLoader) (names : List QualifiedName) :
    List MappingGroup → List MappingGroup
  | [] => []
  | g :: pending =>
    if _ : g.interface.name ∈ names then
      g :: walk loader (without names g.interface.name) (nested loader g ++ pending)
    else walk loader names pending
termination_by pending => (names.length, pending.length)
decreasing_by
  · exact Prod.Lex.left _ _ (length_without ‹_›)
  · exact Prod.Lex.right _ (by simp)

/-- The groups of a mapping, its own first.  Every class that the loader gives must
have one of the names. -/
def ofMapping (names : List QualifiedName) (loader : ClassLoader) (root : LoadedClass)
    (keyPrefix : String) : List MappingGroup :=
  walk loader (root.name :: names) [⟨root, keyPrefix⟩]

/-- The manifest of a group. -/
def manifest (g : MappingGroup) : Json :=
  .object
    [("interface", .text g.interface.name.text), ("prefix", .text g.keyPrefix),
      ("properties", .array (g.interface.methods.map fun m => .text m.name))]

/-- What the name of an implementation ends with. -/
def implementationSuffix : String := "$$CMImpl"

/-- The implementation of a group: its manifest. -/
def implementation (g : MappingGroup) : Implementation where
  className := g.interface.name.text ++ implementationSuffix
  bytes := Text.encodeUtf8 g.manifest.compact
  interface := g.interface.name

end MappingGroup

/-- The emitter that makes a manifest for each group of a mapping. -/
def manifestEmitter (names : List QualifiedName) (loader : ClassLoader) : MappingEmitter :=
  fun root keyPrefix => .ok ((MappingGroup.ofMapping names loader root keyPrefix).map
    MappingGroup.implementation)

end ConfigBinder
