import FlowArtifact.Live.Component
import FlowArtifact.Proofs.Location.Grammar
import FlowArtifact.Proofs.Location.Written

/-!
# Where live components are

The text of a component location is read in three ways: as the name of the global
element, as the location of this element, and as a location.  All three begin with
the same cut at the separators.  A text that was made of parts is cut into these
parts again, so reading it is appending the parts to a builder one after another.
-/

namespace FlowArtifact

namespace ComponentLocation

open Location.Builder (empty run build)

/-- A component location is read by appending the pieces of its text. -/
theorem toLocation_eq_run (l : ComponentLocation) :
    l.toLocation = (empty.run (.globalName (Text.split Location.separator l.text).1 ::
      (Text.split Location.separator l.text).2.map .part) >>= build) := by
  rw [toLocation, Location.parse, Location.Builder.ofText_eq_run]

theorem text_ofParts (first : LocationPart) (others : List LocationPart) :
    (ofParts (first :: others)).text = Location.text ⟨first.path, others.map (·.path)⟩ := by
  simp [ofParts, Location.text, Function.comp_def]

theorem split_ofParts {first : LocationPart} {others : List LocationPart}
    (h : ∀ p ∈ first :: others, Location.separator ∉ p.path.toList) :
    Text.split Location.separator (ofParts (first :: others)).text =
      (first.path, others.map (·.path)) := by
  obtain ⟨hfirst, hothers⟩ := List.forall_mem_cons.1 h
  rw [text_ofParts]
  exact Location.split_text hfirst (List.forall_mem_map.2 hothers)

end ComponentLocation

theorem LiveComponent.rootLocation_eq_ok {c : LiveComponent} {l : ComponentLocation}
    (hc : c.location = some l) (hname : Location.checkGlobalName l.rootName = .ok ()) :
    c.rootLocation = .ok (some ⟨l.rootName, []⟩) := by
  simp only [rootLocation, hc, Location.Builder.setGlobalName, Location.Builder.empty, hname,
    ok_bind, pure_eq_ok, Location.Builder.build, Location.Builder.requireGlobalName]
  rfl

namespace ComponentLocation

open Location.Builder (empty run build)

/-- A location made of parts without separators is read as these parts are appended to a builder,
with the same location or the same error, and its root is the first part.  If the text of a
component is a location, then its root is the global element of that location. -/
theorem toLocation_ofParts :
    (∀ (first : LocationPart) (others : List LocationPart),
      (∀ p ∈ first :: others, '/' ∉ p.path.toList) →
        (ofParts (first :: others)).toLocation =
          (empty.run (.globalName first.path :: others.map fun p => .part p.path) >>= build) ∧
        (ofParts (first :: others)).rootName = first.path) ∧
    ∀ (c : LiveComponent) (l : ComponentLocation) (location : Location),
      c.location = some l → l.toLocation = .ok location →
        c.rootLocation = .ok (some ⟨location.globalName, []⟩) := by
  constructor
  · intro first others h
    have hsplit := split_ofParts h
    constructor
    · rw [toLocation_eq_run, hsplit, List.map_map]
      rfl
    · rw [rootName, hsplit]
  · intro c l location hc hl
    obtain ⟨⟨hname, -, -⟩, rfl⟩ := Location.parse_eq_ok_iff.1 hl
    exact LiveComponent.rootLocation_eq_ok hc hname

def scopeParts : List LocationPart :=
  [⟨"processors", none⟩, ⟨"1", some ⟨⟨"mule", "foreach"⟩, .scope⟩⟩]

theorem toLocation_ofParts_scope :
    (∀ p ∈ ⟨"bridge", some ⟨⟨"mule", "flow"⟩, .flow⟩⟩ :: scopeParts, '/' ∉ p.path.toList) ∧
      (ofParts (⟨"bridge", some ⟨⟨"mule", "flow"⟩, .flow⟩⟩ :: scopeParts)).toLocation =
        .ok ⟨"bridge", ["processors", "1"]⟩ ∧
      LiveComponent.rootLocation ⟨{}, some { text := "bridge/processors/1" }⟩ =
        .ok (some ⟨"bridge", []⟩) := by
  obtain ⟨hparts, hroot⟩ := toLocation_ofParts
  have hclean : ∀ p ∈ ⟨"bridge", some ⟨⟨"mule", "flow"⟩, .flow⟩⟩ :: scopeParts,
      '/' ∉ p.path.toList := by decide +kernel
  have hrun : (empty.run (.globalName "bridge" :: scopeParts.map fun p => .part p.path) >>=
      build) = .ok ⟨"bridge", ["processors", "1"]⟩ := by decide +kernel
  have htext : toLocation { text := "bridge/processors/1" } =
      .ok ⟨"bridge", ["processors", "1"]⟩ := by decide +kernel
  exact ⟨hclean, (hparts _ _ hclean).1.trans hrun, hroot _ _ _ rfl htext⟩

end ComponentLocation

end FlowArtifact
