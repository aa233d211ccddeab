import FlowArtifact.Proofs.Serialization
import FlowArtifact.Proofs.Source.Nesting

/-!
# The limit of the reader and the documents of artifacts

A reader has room for a given number of levels of lists and records, and what it
reads of a source that is nested no deeper does not depend on that number.  The
checks bound the levels of an artifact, so its JSON text is read as by a reader
that has no limit.  The bound is sharp: a parameter group inside of the deepest
component may hold the deepest value.
-/

namespace FlowArtifact

open Source (nestingItems nestingFields)

namespace GlobalElement

variable {room room' : Nat}

theorem readKey_eq_of_nesting_le {s : Source} (h : s.nesting ≤ room) (h' : s.nesting ≤ room') :
    readKey room s = readKey room' s := by
  have hcontent : s.content room = s.content room' := Source.content_eq_of_nesting_le s h h'
  unfold readKey
  split
  · rfl
  · rw [hcontent]

theorem readFields_eq_of_nesting_le (fields : Fields) (h : nestingFields fields ≤ room)
    (h' : nestingFields fields ≤ room') (kind : Option Kind) (done : List (Head × Doc)) :
    readFields room kind done fields = readFields room' kind done fields := by
  cases fields with
  | field key keyed value left rest =>
      rw [nestingFields] at h h'
      have hkey : readKey room key = readKey room' key :=
        readKey_eq_of_nesting_le (by omega) (by omega)
      have hvalue : value.content room = value.content room' :=
        Source.content_eq_of_nesting_le value (by omega) (by omega)
      have hrest := readFields_eq_of_nesting_le rest (by omega) (by omega)
      simp only [readFields, hkey, hvalue, hrest]
  | _ => rfl

theorem ofSource_eq_of_nesting_le {s : Source} (h : s.nesting ≤ room) (h' : s.nesting ≤ room') :
    ofSource room s = ofSource room' s := by
  cases s with
  | scalar => rfl
  | broken => rfl
  | list spot items =>
      rw [Source.nesting] at h h'
      obtain ⟨n, rfl, hn⟩ := Source.exists_room h
      obtain ⟨n', rfl, hn'⟩ := Source.exists_room h'
      cases items with
      | closed => rfl
      | broken => rfl
      | item first left rest =>
          rw [nestingItems] at hn hn'
          have hrest : Source.contentItems n rest = Source.contentItems n' rest :=
            Source.contentItems_eq_of_nesting_le rest (by omega) (by omega)
          simp only [ofSource, hrest]
  | record spot fields =>
      rw [Source.nesting] at h h'
      obtain ⟨n, rfl, hn⟩ := Source.exists_room h
      obtain ⟨n', rfl, hn'⟩ := Source.exists_room h'
      have hfields := readFields_eq_of_nesting_le fields hn hn'
      simp only [ofSource, hfields]

theorem ofItems_eq_of_nesting_le (items : Items) (h : nestingItems items ≤ room)
    (h' : nestingItems items ≤ room') : ofItems room items = ofItems room' items := by
  cases items with
  | item s left rest =>
      rw [nestingItems] at h h'
      have hitem : ofSource room s = ofSource room' s :=
        ofSource_eq_of_nesting_le (by omega) (by omega)
      have hrest : ofItems room rest = ofItems room' rest :=
        ofItems_eq_of_nesting_le rest (by omega) (by omega)
      rw [ofItems, ofItems, hitem, hrest]
  | _ => rfl

theorem listOfSource_eq_of_nesting_le {s : Source} (h : s.nesting ≤ room)
    (h' : s.nesting ≤ room') : listOfSource room s = listOfSource room' s := by
  cases s with
  | list spot items =>
      rw [Source.nesting] at h h'
      obtain ⟨n, rfl, hn⟩ := Source.exists_room h
      obtain ⟨n', rfl, hn'⟩ := Source.exists_room h'
      exact ofItems_eq_of_nesting_le items hn hn'
  | scalar spot value spelling blank => cases blank <;> rfl
  | _ => rfl

end GlobalElement

namespace Artifact

variable {room room' : Nat}

theorem readFields_eq_of_nesting_le (fields : Fields) (h : nestingFields fields ≤ room)
    (h' : nestingFields fields ≤ room') (elements : Option (List GlobalElement))
    (others : List (Head × Doc)) :
    readFields room elements others fields = readFields room' elements others fields := by
  cases fields with
  | field key keyed value left rest =>
      rw [nestingFields] at h h'
      have helements : GlobalElement.listOfSource room value =
          GlobalElement.listOfSource room' value :=
        GlobalElement.listOfSource_eq_of_nesting_le (by omega) (by omega)
      have hvalue : value.content room = value.content room' :=
        Source.content_eq_of_nesting_le value (by omega) (by omega)
      have hrest := readFields_eq_of_nesting_le rest (by omega) (by omega)
      simp only [readFields, helements, hvalue, hrest]
  | _ => rfl

/-- Where there is room enough for a source, more room makes no difference to its artifact. -/
theorem ofSource_eq_of_nesting_le {s : Source} (h : s.nesting ≤ room) (h' : s.nesting ≤ room') :
    ofSource room s = ofSource room' s := by
  cases s with
  | scalar spot value spelling blank => cases blank <;> rfl
  | list => rfl
  | broken => rfl
  | record spot fields =>
      rw [Source.nesting] at h h'
      obtain ⟨n, rfl, hn⟩ := Source.exists_room h
      obtain ⟨n', rfl, hn'⟩ := Source.exists_room h'
      exact readFields_eq_of_nesting_le fields hn hn' none []

/-- The text of an artifact is read in the same way by every reader that has room for its
document. -/
theorem take_serialize_eq_of_nesting_le (a : Artifact) (indented : Bool)
    (h : a.toDoc.nesting ≤ room) (h' : a.toDoc.nesting ≤ room') :
    (Json.read (a.serialize .json indented)).take (ofSource room) =
      (Json.read (a.serialize .json indented)).take (ofSource room') := by
  obtain ⟨s, hs, hreading⟩ := (restores_json a indented).source
  have hread : Json.read (a.serialize .json indented) = ⟨s, none⟩ := hreading
  have hnesting : s.nesting = a.toDoc.nesting := Source.nesting_of_renders hs
  have hsource : ofSource room s = ofSource room' s :=
    ofSource_eq_of_nesting_le (hnesting ▸ h) (hnesting ▸ h')
  rw [hread, Reading.take, Reading.take, hsource]

/-- An object in as many objects as values may be nested. -/
def deepestValue : Value :=
  Nat.repeat (fun v => .object none [("inner", v)]) (maxValueDepth - 1) (.object none [])

def deepestComponent : Component :=
  Nat.repeat (fun c => { kind := .scope, attributes := .new "mule" "try", components := [c] })
    (maxComponentDepth - 1)
    { attributes := .new "mule" "logger",
      groups := [⟨"General", .ofList [("value", deepestValue)]⟩] }

/-- An artifact that is nested as deep as the checks allow. -/
def deepest : Artifact where
  attributes := { name := "app" }
  globalElements := [
    .construct { attributes := .new "mule" "flow", components := [deepestComponent] }]

theorem validate_deepest : deepest.validate = .ok () := by decide +kernel

theorem nesting_deepest : deepest.toDoc.nesting = elementNesting + 2 := by decide +kernel

/-- A value has at most two levels for each of its own, and the document of an artifact that
passes the checks at most 102, which some artifact has.  So the limit of the reader is out of
reach: a reader with any other limit from 102 levels on reads the text of the artifact to the
same outcome. -/
theorem nesting_toDoc_within_limit :
    (∀ v : Value, v.toDoc.nesting ≤ 2 * v.depth) ∧
    (∀ a : Artifact, a.validate = .ok () → a.toDoc.nesting ≤ 102) ∧
    (∃ a : Artifact, a.validate = .ok () ∧ a.toDoc.nesting = 102) ∧
    102 < Format.json.maxNesting ∧
    ∀ (a : Artifact) (indented : Bool) (room : Nat), a.validate = .ok () → 102 ≤ room →
      read .json (a.serialize .json indented) =
        (Json.read (a.serialize .json indented)).take (ofSource room) := by
  have hbound {a : Artifact} (hvalid : a.validate = .ok ()) : a.toDoc.nesting ≤ 102 :=
    nesting_toDoc_le (validate_eq_ok_iff.1 hvalid)
  refine ⟨fun v => Value.nesting_toDoc_le (Nat.le_refl _), fun a => hbound,
    ⟨deepest, validate_deepest, nesting_deepest⟩, by decide, ?_⟩
  intro a indented room hvalid hroom
  have hlimit : 102 ≤ Format.json.maxNesting := by decide
  exact take_serialize_eq_of_nesting_le a indented (Nat.le_trans (hbound hvalid) hlimit)
    (Nat.le_trans (hbound hvalid) hroom)

theorem nesting_toDoc_within_limit_deepest :
    deepestValue.depth = 16 ∧ deepestValue.toDoc.nesting = 2 * deepestValue.depth ∧
      deepest.validate = .ok () ∧
      read .json (deepest.serialize .json true) =
        (Json.read (deepest.serialize .json true)).take (ofSource 102) := by
  obtain ⟨hvalue, -, -, -, hread⟩ := nesting_toDoc_within_limit
  have hdepth : deepestValue.depth = 16 := by decide +kernel
  have hlevels : 2 * deepestValue.depth ≤ deepestValue.toDoc.nesting := by decide +kernel
  exact ⟨hdepth, Nat.le_antisymm (hvalue deepestValue) hlevels, validate_deepest,
    hread deepest true 102 validate_deepest (Nat.le_refl _)⟩

end Artifact

end FlowArtifact
