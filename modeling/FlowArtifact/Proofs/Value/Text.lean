import FlowArtifact.Proofs.Value.Documented

/-!
# Values and their JSON texts

The levels of lists and records in the document of a value follow from the value:
an object costs two, a list and a CDATA section one, a plain text none.  A value
is read back from its text if these levels are within the limit of the reader;
otherwise the reader refuses the text for its depth.
-/

namespace FlowArtifact

namespace Format

variable {α : Type} {fit : Doc → Fit α} {text : String}

theorem readDoc_json_of_fit {d : Doc} {a : α} (h : json.readDoc .ok text = .ok d)
    (hfit : fit d = .ok a) : json.readDoc fit text = .ok a := by
  obtain ⟨_, hcontent, ⟨⟩, htail⟩ := readDoc_json_eq_ok_iff.1 h
  exact readDoc_json_eq_ok_iff.2 ⟨d, hcontent, hfit, htail⟩

/-- A document that is too deep is refused, whatever was to be read of it. -/
theorem readDoc_json_write_eq_tooDeep {d : Doc} {g : Scalar → Scalar}
    (hd : d.Over fun x => Json.restored? x = some (g x)) (hnesting : Json.maxNesting < d.nesting)
    (indented : Bool) :
    ∃ p, json.readDoc fit (json.write indented d) = .error ⟨.tooDeep, some p⟩ := by
  obtain ⟨s, hs, hread⟩ := Json.read_written hd indented
  obtain ⟨p, hp⟩ := Source.content_eq_tooDeep Json.maxNesting hs hd hnesting
  refine ⟨p, ?_⟩
  simp only [readDoc, reading, maxNesting, write, hread, Reading.take, hp, error_bind]

end Format

namespace Value

def levels (v : Value) : Nat :=
  v.fold (fun s => if s.isCdata then 1 else 0) (fun items => 1 + items.foldr max 0)
    (fun _ parameters => 2 + (parameters.map (·.2)).foldr max 0)

theorem levels_leaf (s : Simple) : levels (.leaf s) = if s.isCdata then 1 else 0 :=
  Nest.fold_leaf _ _ _ s

theorem levels_list (items : List Value) :
    levels (Nest.list items) = 1 + (items.map levels).foldr max 0 := Nest.fold_list _ _ _ items

theorem levels_record (typeId : Option String) (parameters : NameMap Value) :
    levels (.record typeId parameters) =
      2 + (parameters.entries.map fun e : String × Value => e.2.levels).foldr max 0 := by
  unfold levels
  rw [Nest.fold_record, NameMap.entries_map, List.map_map]
  rfl

theorem nesting_toDoc (v : Value) : v.toDoc.nesting = v.levels := by
  induction v using Nest.induct with
  | leaf s =>
      rw [toDoc_leaf, levels_leaf]
      cases s.isCdata <;> rfl
  | list items ih =>
      have hitems : (items.map toDoc).map Doc.nesting = items.map levels := by
        rw [List.map_map]
        exact List.map_congr_left ih
      rw [toDoc_list, levels_list, Doc.nesting_list, hitems]
  | record typeId parameters ih =>
      have hvalues : (Doc.named (parameters.map toDoc).entries).nesting =
          1 + (parameters.entries.map fun e : String × Value => e.2.levels).foldr max 0 := by
        rw [Doc.nesting_named, NameMap.entries_map, List.map_map]
        congr 2
        exact List.map_congr_left ih
      rw [toDoc_record, levels_record, Doc.nesting_named]
      generalize Doc.named (parameters.map toDoc).entries = d at hvalues
      cases typeId <;> simp [hvalues] <;> omega

theorem over_restored (v : Value) : v.toDoc.Over fun x => Json.restored? x = some (id x) :=
  over_toDoc (fun _ => rfl) v

theorem readDoc_toDoc {v : Value} (h : v.levels ≤ Json.maxNesting) (indented : Bool) :
    Format.json.readDoc .ok (Format.json.write indented v.toDoc) = .ok v.toDoc := by
  have hself : v.toDoc.mapScalars id = v.toDoc := Doc.mapScalars_eq_self (v.over_toDoc fun _ => rfl)
  have hread := Format.readDoc_json_write v.over_restored (v.nesting_toDoc ▸ h) indented
  rwa [hself] at hread

/-- A value is read back from its text if it is written with no more levels than the reader
follows, and is refused for its depth otherwise; so is an object value. -/
theorem read_write_json (indented : Bool) :
    (∀ v : Value,
      (v.levels ≤ 127 → read .json (Format.json.write indented v.toDoc) = .ok v) ∧
      (128 ≤ v.levels → ∃ p,
        read .json (Format.json.write indented v.toDoc) = .error ⟨.tooDeep, some p⟩)) ∧
    ∀ o : ObjectValue,
      (o.toValue.levels ≤ 127 →
        ObjectValue.read .json (Format.json.write indented o.toDoc) = .ok o) ∧
      (128 ≤ o.toValue.levels → ∃ p,
        ObjectValue.read .json (Format.json.write indented o.toDoc) =
          .error ⟨.tooDeep, some p⟩) := by
  have hdeep {v : Value} (h : 128 ≤ v.levels) : Json.maxNesting < v.toDoc.nesting := by
    rwa [nesting_toDoc]
  constructor
  · intro v
    refine ⟨fun h => ?_, fun h => ?_⟩
    · exact Format.readDoc_json_of_fit (readDoc_toDoc h indented) (ofDoc_toDoc v)
    · exact Format.readDoc_json_write_eq_tooDeep v.over_restored (hdeep h) indented
  · intro o
    refine ⟨fun h => ?_, fun h => ?_⟩
    · exact Format.readDoc_json_of_fit (readDoc_toDoc h indented) (ObjectValue.ofDoc_toDoc o)
    · exact Format.readDoc_json_write_eq_tooDeep o.toValue.over_restored (hdeep h) indented

def inLists (n : Nat) : Value := Nat.repeat (fun v => list [v]) n (simple "leaf")

def inObjects (n : Nat) : ObjectValue where
  parameters := .ofList [("c", Nat.repeat (fun v => object none [("c", v)]) n (cdata "leaf"))]

theorem read_write_json_at_limit :
    ((inLists 127).levels ≤ 127 ∧
      read .json (Format.json.write false (inLists 127).toDoc) = .ok (inLists 127)) ∧
    (128 ≤ (inLists 128).levels ∧ ∃ p,
      read .json (Format.json.write false (inLists 128).toDoc) = .error ⟨.tooDeep, some p⟩) ∧
    ((inObjects 62).toValue.levels ≤ 127 ∧
      ObjectValue.read .json (Format.json.write true (inObjects 62).toDoc) =
        .ok (inObjects 62)) ∧
    (128 ≤ (inObjects 63).toValue.levels ∧ ∃ p,
      ObjectValue.read .json (Format.json.write true (inObjects 63).toDoc) =
        .error ⟨.tooDeep, some p⟩) := by
  have hlists : (inLists 127).levels ≤ 127 := by decide +kernel
  have hlists' : 128 ≤ (inLists 128).levels := by decide +kernel
  have hobjects : (inObjects 62).toValue.levels ≤ 127 := by decide +kernel
  have hobjects' : 128 ≤ (inObjects 63).toValue.levels := by decide +kernel
  exact ⟨⟨hlists, ((read_write_json false).1 (inLists 127)).1 hlists⟩,
    ⟨hlists', ((read_write_json false).1 (inLists 128)).2 hlists'⟩,
    ⟨hobjects, ((read_write_json true).2 (inObjects 62)).1 hobjects⟩,
    ⟨hobjects', ((read_write_json true).2 (inObjects 63)).2 hobjects'⟩⟩

end Value

end FlowArtifact
