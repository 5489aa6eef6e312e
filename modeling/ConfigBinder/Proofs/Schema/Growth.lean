/-
A snapshot is read as it was written, whatever layout it has got since.

What is written carries itself, so a document after any `Edits` carries the snapshot
(`Carries.edits`), and the reader finds it there.  The check then sees the same snapshot as in
the document that was written, and ends as it ends there.

A number beyond the range of floating point is passed over where nobody asks for it, but a
record that says its kind is read ahead whole, and such a number makes that fail.
-/
import ConfigBinder.Proofs.Schema.Metadata

namespace ConfigBinder

open Json

namespace Snapshot

/-- **A snapshot is read as it was written, whatever layout it has got since.**  After any
number of edits at any depth, where records list their members in another order, have members
that nobody asks for and leave out members that hold their default, every text of the document
gives what every text of the snapshot as it was written gives.  That is never an error of form,
as long as neither document nests deeper than a reader goes. -/
theorem ofText_of_edits {s : Snapshot} {d : Json}
    (hedits : Edits Form.Admits (.record .snapshot) s.toJson d)
    (hs : s.toJson.height ≤ maxHeight) (hd : d.height ≤ maxHeight) :
    ∀ written text, parse? written = some s.toJson → parse? text = some d →
      ofText .json text = ofText .json written ∧
        ofText .json text ≠ .error .malformedJson := by
  intro written text hwritten htext
  rw [ofText_of_carries (s.carries_self.edits hedits) htext hd, ofText_of_parse? hwritten hs]
  refine ⟨rfl, ?_⟩
  rw [sound]
  cases s.validate <;> simp

/-- A text that `ofDocument?` reads as no snapshot is malformed. -/
theorem ofText_of_unread {text : String} {d : Json} (hparse : parse? text = some d)
    (hread : (ofDocument? d.view : Option Snapshot) = none) :
    ofText .json text = .error .malformedJson := by
  have hnone : (some d).bind (fun v => (ofDocument? v.view : Option Snapshot)) = none := hread
  unfold ofText
  rw [hparse, hnone]

/-- One declaration on one class. -/
def declared : Snapshot where
  classes := []
  injectionPoints := []
  declarations := [⟨⟨⟨"Mapping"⟩, ∅⟩, .onClass ⟨"Cache"⟩⟩]
  configRoots := []

/-- The annotation of the declaration in `declared`, as it is written. -/
def attachedMapping : String × Json :=
  ("annotation", .object [("name", .text "Mapping"), ("values", .object [])])

/-- The members of `declared` when the target of the declaration has the given ones. -/
def declaredOn (target : List (String × Json)) : List (String × Json) :=
  [("classes", .array []), ("injection_points", .array []),
    ("declarations", .array [.object [attachedMapping, ("target", .object target)]]),
    ("config_roots", .array [])]

/-- The target of that declaration as it is written. -/
def declaredTarget : List (String × Json) := [("kind", .text "class"), ("name", .text "Cache")]

/-- An edit of the target is an edit of the snapshot. -/
theorem edit_declaredOn {Admits : Form → Json → Prop} {target target' : List (String × Json)}
    (h : Edit Admits (.record .declarationTarget) (.object target) (.object target')) :
    Edit Admits (.record .snapshot) (.object (declaredOn target))
      (.object (declaredOn target')) := by
  have hdeclaration := @Edit.member Admits .declaration [attachedMapping] [] _ _
    ⟨"target", .record .declarationTarget, none⟩ (List.mem_cons_of_mem _ List.mem_cons_self) h
  have hlist := @Edit.item Admits .declaration _ _
    [.object [attachedMapping, ("target", .object target)]] 0 rfl hdeclaration
  exact @Edit.member Admits .snapshot [("classes", .array []), ("injection_points", .array [])]
    [("config_roots", .array [])] _ _ ⟨"declarations", .list .declaration, some (.array [])⟩
    (List.mem_cons_of_mem _ (List.mem_cons_of_mem _ List.mem_cons_self)) hlist

/-- The snapshot `declared` without its empty list of classes, with the kind of the target behind
its name and with a number that no floating point holds, which nobody asks for. -/
def declaredText : String :=
  "\x7b\"injection_points\":[],\"declarations\":[\x7b\"annotation\":\x7b\"name\":\"Mapping\"," ++
    "\"values\":\x7b\x7d\x7d,\"target\":\x7b\"name\":\"Cache\",\"kind\":\"class\"\x7d\x7d]," ++
    "\"config_roots\":[],\"build\":1e309\x7d"

/-- What that text spells. -/
def declaredAnew : List (String × Json) :=
  (declaredOn declaredTarget.reverse).tail ++ [("build", .flawed)]

set_option maxRecDepth 4000 in
/-- It is read as the snapshot that was written. -/
theorem ofText_declaredText :
    Edits Form.Admits (.record .snapshot) declared.toJson (.object declaredAnew) ∧
      declared.toJson.height ≤ maxHeight ∧ (Json.object declaredAnew).height ≤ maxHeight ∧
      parse? declaredText = some (.object declaredAnew) ∧
      ofText .json declaredText = ofText .json declared.toJson.compact ∧
      ofText .json declaredText ≠ .error .malformedJson := by
  have hreorder : Edit Form.Admits _ _ _ :=
    edit_declaredOn (.reorder (List.reverse_perm declaredTarget).symm)
  have hleaveOut : Edit Form.Admits _ _ _ :=
    @Edit.leaveOut _ .snapshot [] (declaredOn declaredTarget.reverse).tail
      ⟨"classes", .list .classEntry, some (.array [])⟩ (.array []) List.mem_cons_self rfl
  have hadd : Edit Form.Admits _ _ _ :=
    @Edit.add _ .snapshot (declaredOn declaredTarget.reverse).tail [] "build" .flawed
      (by decide) (fun h => nomatch h)
  have hedits : Edits Form.Admits (.record .snapshot) declared.toJson (.object declaredAnew) :=
    .tail (.tail (.single hreorder) hleaveOut) hadd
  have hwritten : declared.toJson.height ≤ maxHeight := by decide
  have hanew : (Json.object declaredAnew).height ≤ maxHeight := by decide
  have hparse : parse? declaredText = some (.object declaredAnew) := by
    unfold parse? declaredText
    simp only [String.reduceToList, String.reduceAppend]
    rfl
  have hsame := ofText_of_edits hedits hwritten hanew declared.toJson.compact declaredText
    (parse?_compact declared.isPrintable_toJson) hparse
  exact ⟨hedits, hwritten, hanew, hparse, hsame⟩

/-- The snapshot `declared` with such a number added to the target. -/
def overflowText : String :=
  "\x7b\"classes\":[],\"injection_points\":[],\"declarations\":[\x7b\"annotation\":" ++
    "\x7b\"name\":\"Mapping\",\"values\":\x7b\x7d\x7d,\"target\":\x7b\"kind\":\"class\"," ++
    "\"name\":\"Cache\",\"line\":1e309\x7d\x7d],\"config_roots\":[]\x7d"

/-- What that text spells. -/
def overflowAnew : List (String × Json) :=
  declaredOn (declaredTarget ++ [("line", .flawed)])

set_option maxRecDepth 4000 in
/-- The target says its kind and is read ahead, so there the number makes the document
malformed: not every member may be added to it. -/
theorem ofText_overflowText :
    Edit (fun _ _ => True) (.record .snapshot) declared.toJson (.object overflowAnew) ∧
      declared.toJson.height ≤ maxHeight ∧ (Json.object overflowAnew).height ≤ maxHeight ∧
      parse? overflowText = some (.object overflowAnew) ∧
      ofText .json declared.toJson.compact = .ok declared ∧
      ofText .json overflowText = .error .malformedJson := by
  have hadd : Edit (fun _ _ => True) (.record .snapshot) declared.toJson (.object overflowAnew) :=
    edit_declaredOn (@Edit.add _ .declarationTarget declaredTarget [] "line" .flawed (by decide)
      trivial)
  have hparse : parse? overflowText = some (.object overflowAnew) := by
    unfold parse? overflowText
    simp only [String.reduceToList, String.reduceAppend]
    rfl
  have hwritten : ofText .json declared.toJson.compact = .ok declared := by
    rw [ofText_of_parse? (parse?_compact declared.isPrintable_toJson) (by decide)]
    rfl
  exact ⟨hadd, by decide, by decide, hparse, hwritten, ofText_of_unread hparse rfl⟩

end Snapshot

end ConfigBinder
