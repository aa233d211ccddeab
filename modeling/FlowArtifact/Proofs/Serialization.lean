import FlowArtifact.Proofs.Declaration.Building
import FlowArtifact.Proofs.Declaration.Restoring
import FlowArtifact.Proofs.Json.Parsing
import FlowArtifact.Serialization

/-!
# Artifacts and their texts

A text format restores a document if the text of the document is read to a source
that renders it.  JSON restores every document.  What is then read of the text of
an artifact is the artifact but for its doubles, so it passes the same checks; a
legal artifact without doubles is read back as it is.  An artifact that was built
is refused by its reader only if its own attributes are nested too deep.
-/

namespace FlowArtifact

/-- The text of a document is read to a source of it, its scalars read by `restore`. -/
structure Format.Restores (format : Format) (restore : Scalar → Option Scalar)
    (indented : Bool) (d : Doc) : Prop where
  text : ∀ t, restore (.text t) = some (.text t)
  source : ∃ s : Source, s.Renders restore d ∧ format.reading (format.write indented d) = ⟨s, none⟩

theorem Yaml.read_print (d : Doc) : read (print d) = readChars (docChars d) := by
  rw [read, print, String.toList_ofList]

/-- A document is restored by YAML if what is read of its characters renders it. -/
theorem Format.restores_yaml {d : Doc} {indented : Bool}
    (h : (Yaml.readChars (Yaml.docChars d)).root.isRendering some d = true ∧
      (Yaml.readChars (Yaml.docChars d)).tail = none) : Format.yaml.Restores some indented d := by
  refine ⟨fun _ => rfl, _, Source.renders_of_isRendering _ d h.1, ?_⟩
  rw [Format.reading, Format.write, Yaml.read_print, ← h.2]

namespace Artifact

/-- A text that holds nothing but its document is read from the source of it. -/
theorem read_of_reading {format : Format} {text : String} {s : Source}
    (h : format.reading text = ⟨s, none⟩) : read format text = ofSource format.maxNesting s := by
  rw [read, h, Reading.take]
  cases ofSource format.maxNesting s <;> rfl

theorem deserialize_eq_ok_iff {format : Format} {text : String} {a : Artifact} :
    deserialize format text = .ok a ↔ read format text = .ok a ∧ a.validate = .ok () := by
  rw [deserialize, bind_eq_ok_iff]
  constructor
  · rintro ⟨b, hread, hcheck⟩
    rw [check_bind_eq_ok_iff] at hcheck
    obtain ⟨hvalid, ⟨⟩⟩ := hcheck
    exact ⟨mapError_eq_ok_iff.1 hread, hvalid⟩
  · rintro ⟨hread, hvalid⟩
    exact ⟨a, mapError_eq_ok_iff.2 hread, check_bind_eq_ok_iff.2 ⟨hvalid, rfl⟩⟩

theorem restores_json (a : Artifact) (indented : Bool) :
    Format.json.Restores Json.restored? indented a.toDoc := by
  have hover : a.toDoc.Over fun _ => True :=
    over_toDoc (fun _ => trivial) fun _ _ e _ =>
      Datum.over_toDoc (fun _ _ => trivial) (.inr fun _ => trivial)
  exact ⟨fun _ => rfl, Json.read_written hover indented⟩

section
variable {format : Format} {restore : Scalar → Option Scalar} {indented : Bool} {a : Artifact}
  (h : format.Restores restore indented a.toDoc)
include h

/-- The text of an artifact is read by way of the content of its source. -/
theorem toOption_read_serialize : ∃ s : Source, s.Renders restore a.toDoc ∧
    (read format (a.serialize format indented)).toOption =
      (s.content format.maxNesting).toOption.bind ofDoc? := by
  obtain ⟨s, hs, hreading⟩ := h.source
  refine ⟨s, hs, ?_⟩
  rw [serialize, read_of_reading hreading, toOption_ofSource _ (legible_of_renders h.text hs)]

/-- What is read of the text of an artifact passes the same checks as the artifact. -/
theorem validate_of_read_serialize {b : Artifact}
    (hb : read format (a.serialize format indented) = .ok b) : b.validate = a.validate := by
  obtain ⟨s, hs, hread⟩ := toOption_read_serialize h
  -- A scalar that is not restored makes the reader fail, so `g` may take it as it is.
  let g (x : Scalar) : Scalar := (restore x).getD x
  have hg (t : String) : g (.text t) = .text t := by
    simp [g, h.text]
  rw [hb, toOption_ok, eq_comm, Option.bind_eq_some_iff] at hread
  obtain ⟨d, hd, hb⟩ := hread
  have hcontent : d = a.toDoc.mapScalars g :=
    Source.eq_mapScalars_of_content (fun x x' hx => by simp [g, hx]) hs
      (toOption_eq_some_iff.1 hd)
  rw [hcontent, ← toDoc_mapLeaf hg, ofDoc?_toDoc] at hb
  obtain rfl := Option.some.inj hb
  have hsettled (v : Datum) : v.settled.depth = v.depth := Nest.depth_mapLeaf _ v
  rw [validate_mapMetadata hsettled, validate_mapMetadata (Nest.depth_mapLeaf g)]

theorem validate_of_deserialize_serialize {b : Artifact}
    (hb : deserialize format (a.serialize format indented) = .ok b) : a.validate = .ok () := by
  obtain ⟨hread, hvalid⟩ := deserialize_eq_ok_iff.1 hb
  rw [← validate_of_read_serialize h hread, hvalid]

/-- The text of an artifact that passes the checks is not refused for a breach of the rules. -/
theorem isStructural_of_deserialize_serialize (hvalid : a.validate = .ok ()) {e : Error}
    (he : deserialize format (a.serialize format indented) = .error e) :
    e.isStructural = false := by
  rcases bind_eq_error_iff.1 he with hread | ⟨b, hread, hcheck⟩
  · cases hfault : read format (a.serialize format indented) with
    | ok b =>
        rw [hfault] at hread
        cases hread
    | error f =>
        rw [hfault] at hread
        cases hread
        rfl
  · have hsame := validate_of_read_serialize h (mapError_eq_ok_iff.1 hread)
    rw [hsame, hvalid] at hcheck
    cases hcheck

theorem read_serialize (hexact : ∀ s, s.isExact = true → restore s = some s) (hlegal : a.Legal)
    (hroom : elementNesting + 2 ≤ format.maxNesting)
    (hmetadata : ∀ attributes ∈ a.allAttributes, ∀ e ∈ attributes.metadata.entries,
      e.2.isExact = true) :
    read format (a.serialize format indented) = .ok a := by
  obtain ⟨s, hs, hread⟩ := toOption_read_serialize h
  have hover : a.toDoc.Over fun x => restore x = some (id x) :=
    over_toDoc h.text fun attributes hmem e he =>
      Datum.over_toDoc hexact (.inl (hmetadata attributes hmem e he))
  have hcontent : s.content format.maxNesting = .ok (a.toDoc.mapScalars id) :=
    Source.content_eq_ok _ hs hover (Nat.le_trans (nesting_toDoc_le hlegal) hroom)
  have hself : a.toDoc.mapScalars id = a.toDoc :=
    Doc.mapScalars_eq_self (over_toDoc (fun _ => rfl) fun _ _ e _ =>
      Datum.over_toDoc (fun _ _ => rfl) (.inr fun _ => rfl))
  have hsettled : a.mapMetadata Datum.settled = a :=
    mapMetadata_eq_self fun attributes hmem e he =>
      Datum.mapLeaf_eq_self (fun _ hs => Scalar.settled_of_isExact hs)
        (hmetadata attributes hmem e he)
  rw [hcontent, hself, toOption_ok, Option.bind_some, ofDoc?_toDoc, hsettled] at hread
  exact toOption_eq_some_iff.1 hread

theorem deserialize_serialize (hexact : ∀ s, s.isExact = true → restore s = some s)
    (hvalid : a.validate = .ok ()) (hroom : elementNesting + 2 ≤ format.maxNesting)
    (hmetadata : ∀ attributes ∈ a.allAttributes, ∀ e ∈ attributes.metadata.entries,
      e.2.isExact = true) :
    deserialize format (a.serialize format indented) = .ok a := by
  have hread := read_serialize h hexact (validate_eq_ok_iff.1 hvalid) hroom hmetadata
  exact deserialize_eq_ok_iff.2 ⟨hread, hvalid⟩

end

theorem restored?_of_isExact {s : Scalar} (h : s.isExact = true) : Json.restored? s = some s := by
  cases s with
  | real x => cases h
  | _ => rfl

theorem elementNesting_add_two_le_maxNesting (format : Format) :
    elementNesting + 2 ≤ format.maxNesting := by
  cases format <;> decide

theorem validate_of_deserialize {format : Format} {text : String} {a : Artifact}
    (h : deserialize format text = .ok a) : a.validate = .ok () :=
  (deserialize_eq_ok_iff.1 h).2

/-- A legal artifact whose metadata holds no doubles is read back from its JSON text. -/
theorem deserialize_serialize_json (a : Artifact) (hvalid : a.validate = .ok ())
    (hmetadata : ∀ attributes ∈ a.allAttributes, ∀ e ∈ attributes.metadata.entries,
      e.2.isExact = true) (indented : Bool) :
    deserialize .json (a.serialize .json indented) = .ok a := by
  have hrestores := restores_json a indented
  have hroom := elementNesting_add_two_le_maxNesting .json
  exact deserialize_serialize hrestores (fun _ => restored?_of_isExact) hvalid hroom hmetadata

/-- An artifact with a part of each kind, repeated groups, a CDATA section and an empty type id. -/
def specimen : Artifact where
  attributes := {
    name := "orders"
    metadata := .ofList [("build", .leaf (.int default)), ("tags", .list [.leaf (.bool true)])]
    custom := [⟨"doc", .cdata "<a>&"⟩] }
  globalElements := [
    .configuration {
      attributes := .new "http" "listener"
      refName := some "listener"
      groups := [⟨"General", .ofList [("path", .simple "/a\"b")]⟩, .new "General"]
      connection := some { attributes := .new "http" "connection" } },
    .construct {
      attributes := .new "mule" "flow"
      refName := some "bridge"
      components := [{ kind := .router, components := [.new .route "mule" "when"] }]
      errorHandlers := [.new .scope "mule" "on-error"] },
    .topLevelParameter { value := { typeId := some "" } }]

theorem deserialize_serialize_specimen :
    specimen.validate = .ok () ∧
      deserialize .json (specimen.serialize .json true) = .ok specimen ∧
      deserialize .json (specimen.serialize .json false) = .ok specimen := by
  have hvalid : specimen.validate = .ok () := by decide +kernel
  have hmetadata : ∀ attributes ∈ specimen.allAttributes, ∀ e ∈ attributes.metadata.entries,
      e.2.isExact = true := by decide +kernel
  exact ⟨hvalid, deserialize_serialize_json specimen hvalid hmetadata true,
    deserialize_serialize_json specimen hvalid hmetadata false⟩

/-! ## Artifacts that were built -/

/-- An artifact that was built passes the checks, and its text is not refused for a breach of the
rules, exactly when no value in its own attributes is nested too deep.  YAML is relied on to
restore the document. -/
theorem validate_iff_shallow_of_run {calls : List Call} {a : Artifact}
    (hrun : run calls = .ok a) :
    (a.validate = .ok () ↔ Call.Shallow calls) ∧
      ∀ (format : Format) (indented : Bool),
        (format = .yaml → ∃ restore, format.Restores restore indented a.toDoc) →
          (Call.Shallow calls → ∀ e,
            deserialize format (a.serialize format indented) = .error e →
              e.isStructural = false) ∧
          (¬Call.Shallow calls → ∀ b,
            deserialize format (a.serialize format indented) ≠ .ok b) := by
  have hshallow := validate_eq_ok_iff_of_run hrun
  refine ⟨hshallow, fun format indented hyaml => ?_⟩
  obtain ⟨restore, hrestores⟩ : ∃ restore, format.Restores restore indented a.toDoc := by
    cases format with
    | json => exact ⟨_, restores_json a indented⟩
    | yaml => exact hyaml rfl
  constructor
  · intro hcalls e he
    exact isStructural_of_deserialize_serialize hrestores (hshallow.2 hcalls) he
  · intro hcalls b hb
    exact hcalls (hshallow.1 (validate_of_deserialize_serialize hrestores hb))

/-- Calls that build the specimen.  A value that is nested too deep is replaced again. -/
def specimenCalls : List Call :=
  [.metadata "build" (Nat.repeat (fun v => .list [v]) 16 (.leaf .null)), .name "orders",
    .metadata "tags" (.list [.leaf (.bool true)]), .custom "doc" (.cdata "<a>&"),
    .metadata "build" (.leaf (.int default))] ++ specimen.globalElements.map .globalElement

theorem restores_yaml_specimen : Format.yaml.Restores some true specimen.toDoc :=
  Format.restores_yaml (by decide +kernel)

theorem validate_of_specimenCalls :
    run specimenCalls = .ok specimen ∧ Call.Shallow specimenCalls ∧
      (∀ e, deserialize .json (specimen.serialize .json true) = .error e →
        e.isStructural = false) ∧
      Format.yaml.Restores some true specimen.toDoc ∧
      ∀ e, deserialize .yaml (specimen.serialize .yaml true) = .error e →
        e.isStructural = false := by
  have hrun : run specimenCalls = .ok specimen := rfl
  obtain ⟨hvalid, htexts⟩ := validate_iff_shallow_of_run hrun
  have hshallow : Call.Shallow specimenCalls := hvalid.1 (by decide +kernel)
  have hjson := (htexts .json true (by simp)).1 hshallow
  have hyaml := (htexts .yaml true fun _ => ⟨_, restores_yaml_specimen⟩).1 hshallow
  exact ⟨hrun, hshallow, hjson, restores_yaml_specimen, hyaml⟩

/-- A custom parameter of the artifact itself may be nested too deep. -/
theorem validate_of_deep_parameter :
    ¬∀ (calls : List Call) (a : Artifact), run calls = .ok a → a.validate = .ok () := by
  intro h
  let deep : Value := Nat.repeat (fun v => .list [v]) 16 (.simple "leaf")
  have hvalid := h [.custom "root" deep] { attributes := { custom := [⟨"root", deep⟩] } } rfl
  exact absurd hvalid (by decide +kernel)

end Artifact

end FlowArtifact
