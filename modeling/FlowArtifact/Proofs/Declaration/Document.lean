import FlowArtifact.Declaration.Document
import FlowArtifact.Proofs.Datum
import FlowArtifact.Proofs.Declaration.Metadata
import FlowArtifact.Proofs.Value.Document

/-!
# Reading declarations back from their documents

Every declaration writes its attributes next to its own fields, in the order in
which its reader knows them, and leaves out what is empty; the reader begins with
everything empty.  So each reader finds its own fields among the others and reads
back what was written, with the doubles in metadata settled.
-/

namespace FlowArtifact

open Doc (select setAll)

def Datum.settled (v : Datum) : Datum := v.mapLeaf Scalar.settled

/-! ## Parameters and groups -/

theorem Parameter.ofDoc_toDoc (p : Parameter) : ofDoc p.toDoc = .ok p := by
  simp [toDoc, ofDoc, Doc.named, Doc.readFields, Doc.fieldName_text, Doc.asText, Doc.text,
    Value.ofDoc_toDoc, Doc.require]

namespace ParameterGroup

theorem ofDoc_toDoc (g : ParameterGroup) : ofDoc g.toDoc = .ok g := by
  have hparameters : Doc.asNameMap Value.ofDoc (.named (g.parameters.map Value.toDoc).entries) =
      .ok (g.parameters.map id) := Doc.asNameMap_named fun e _ => Value.ofDoc_toDoc e.2
  rw [NameMap.map_eq_self fun _ _ => rfl] at hparameters
  unfold toDoc
  generalize Doc.named (g.parameters.map Value.toDoc).entries = d at hparameters
  simp [ofDoc, Doc.named, Doc.readFields, Doc.fieldName_text, Doc.asText, Doc.text, hparameters,
    Doc.require]

theorem listOfDoc_toDoc (groups : List ParameterGroup) :
    listOfDoc (.list (groups.map toDoc)) = .ok groups := by
  have hread := Doc.mapM_read (f := id) fun g (_ : g ∈ groups) => ofDoc_toDoc g
  simpa [listOfDoc, Doc.asList] using hread

end ParameterGroup

/-! ## Attributes -/

namespace Attributes

theorem names_fields (a : Attributes) : (a.fields.map (·.1)).Sublist fieldNames := by
  have hextension : ((if a.extension = "" then ([] : List (String × Doc))
      else [("declaringExtension", .text a.extension)]).map (·.1)).Sublist
        ["declaringExtension"] := by
    split <;> simp
  have hmetadata : ((if a.metadata.isEmpty then ([] : List (String × Doc))
      else [("metadataProperties", .named (a.metadata.map Datum.toDoc).entries)]).map
        (·.1)).Sublist ["metadataProperties"] := by
    split <;> simp
  unfold fields
  rw [List.map_append, List.map_append]
  exact ((hextension.cons_cons "name").append hmetadata).append (names_listField _ _)

theorem attributeName_text (s : String) :
    attributeName (.scalar (.text s)) = .ok (if s ∈ fieldNames then some s else none) := by
  unfold attributeName
  by_cases hs : s ∈ fieldNames <;> simp [Head.name?, hs]

theorem setAll_fields (a : Attributes) :
    setAll setField {} a.fields = .ok (a.mapMetadata Datum.settled) := by
  have hname : setAll setField {} [("name", .text a.name)] = .ok { name := a.name } := by
    rw [Doc.setAll_singleton]
    rfl
  have hextension : setAll setField { name := a.name } (if a.extension = "" then []
      else [("declaringExtension", .text a.extension)]) =
        .ok { name := a.name, extension := a.extension } :=
    setAll_unless (fun h => by rw [h]) fun _ => rfl
  have hmetadata : setAll setField { name := a.name, extension := a.extension }
      (if a.metadata.isEmpty then []
        else [("metadataProperties", .named (a.metadata.map Datum.toDoc).entries)]) =
        .ok { name := a.name, extension := a.extension,
              metadata := a.metadata.map Datum.settled } := by
    have hread : Doc.asNameMap Datum.ofDoc (.named (a.metadata.map Datum.toDoc).entries) =
        .ok (a.metadata.map Datum.settled) := Doc.asNameMap_named fun e _ => Datum.ofDoc_toDoc e.2
    refine setAll_unless (fun h => ?_) fun _ => ?_
    · have hempty : a.metadata = .empty := NameMap.ext (by simpa [NameMap.isEmpty] using h)
      rw [hempty]
      rfl
    · simp [setField, hread, -NameMap.entries_map]
  have hcustom : setAll setField
      { name := a.name, extension := a.extension, metadata := a.metadata.map Datum.settled }
      (listField "customConfigurationParameters" (a.custom.map Parameter.toDoc)) =
        .ok (a.mapMetadata Datum.settled) := by
    have hread : (a.custom.map Parameter.toDoc).mapM Parameter.ofDoc = .ok (a.custom.map id) :=
      Doc.mapM_read fun p _ => Parameter.ofDoc_toDoc p
    refine setAll_listField (fun h => ?_) ?_
    · simp [mapMetadata, h]
    · simp [setField, Doc.asList, hread, mapMetadata]
  unfold fields
  rw [Doc.setAll_append, Doc.setAll_append, ← List.singleton_append, Doc.setAll_append, hname,
    ok_bind, hextension, ok_bind, hmetadata, ok_bind, hcustom]

/-- The attributes of a declaration are found among its fields. -/
theorem ofFields_written {a : Attributes} {fields : List (String × Doc)}
    (h : select fieldNames fields = a.fields) :
    ofFields (fields.map fun e => (.scalar (.text e.1), e.2)) =
      .ok (a.mapMetadata Datum.settled) := by
  have hread := Doc.readFields_written attributeName_text (by decide) h (names_fields a)
    (setAll_fields a)
  have hseen : Doc.require ["name"] (a.fields.map (·.1)).reverse = .ok () := by
    apply Doc.require_eq_ok
    simp [Attributes.fields]
  rw [ofFields, hread, ok_bind]
  simp only [hseen, ok_bind, pure_eq_ok]

/-- The attributes and the own fields of a declaration are told apart by their names. -/
theorem select_fields_append (a : Attributes) {own : List (String × Doc)} {known : List String}
    (hnames : (own.map (·.1)).Sublist known) (hdisjoint : ∀ name ∈ fieldNames, name ∉ known) :
    select known (a.fields ++ own) = own ∧ select fieldNames (a.fields ++ own) = a.fields := by
  have hdisjoint' : ∀ name ∈ known, name ∉ fieldNames :=
    fun name hknown hname => hdisjoint name hname hknown
  constructor
  · rw [Doc.select_append, Doc.select_eq_nil a.names_fields hdisjoint,
      Doc.select_eq_self hnames, List.nil_append]
  · rw [Doc.select_append, Doc.select_eq_self a.names_fields,
      Doc.select_eq_nil hnames hdisjoint', List.append_nil]

/-- A declaration is read by reading its own fields and its attributes. -/
theorem readFields_append {σ : Type} {set : String → Doc → σ → Fit σ} {init b : σ}
    (a : Attributes) {own : List (String × Doc)} {known : List String}
    (hnames : (own.map (·.1)).Sublist known) (hknown : known.Nodup)
    (hdisjoint : ∀ name ∈ fieldNames, name ∉ known) (hset : setAll set init own = .ok b) :
    Doc.readFields (Doc.textFieldName known) set [] init
        ((a.fields ++ own).map fun e => (.scalar (.text e.1), e.2)) =
          .ok (b, (own.map (·.1)).reverse) ∧
      ofFields ((a.fields ++ own).map fun e => (.scalar (.text e.1), e.2)) =
        .ok (a.mapMetadata Datum.settled) := by
  obtain ⟨hown, hattributes⟩ := a.select_fields_append hnames hdisjoint
  exact ⟨Doc.readFields_written (Doc.textFieldName_text known) hknown hown hnames hset,
    ofFields_written hattributes⟩

end Attributes

/-! ## Connections and configurations -/

namespace Connection

def ownFields (n : Connection) : List (String × Doc) :=
  listField "parameterGroups" (n.groups.map ParameterGroup.toDoc)

theorem fields_eq (n : Connection) : n.fields = n.attributes.fields ++ n.ownFields := rfl

theorem names_ownFields (n : Connection) :
    (n.ownFields.map (·.1)).Sublist ["parameterGroups"] := names_listField _ _

theorem ofDoc_toDoc (n : Connection) :
    ofDoc (.named n.fields) = .ok (n.mapMetadata Datum.settled) := by
  have hset : setAll (fun _ d (n : Connection) => do
        pure { n with groups := ← ParameterGroup.listOfDoc d }) {} n.ownFields =
        .ok { groups := n.groups } := by
    refine setAll_listField (fun h => by rw [h]) ?_
    simp [ParameterGroup.listOfDoc_toDoc]
  obtain ⟨hread, hattributes⟩ := n.attributes.readFields_append n.names_ownFields (by decide)
    (by decide) hset
  rw [Doc.named, fields_eq, ofDoc, hread, ok_bind, hattributes]
  rfl

end Connection

namespace Configuration

def ownFields (c : Configuration) : List (String × Doc) :=
  optionalField "refName" Doc.text c.refName ++
    (listField "parameterGroups" (c.groups.map ParameterGroup.toDoc) ++
      optionalField "connection" (fun n : Connection => .named n.fields) c.connection)

theorem fields_eq (c : Configuration) : c.fields = c.attributes.fields ++ c.ownFields := by
  simp [fields, ownFields]

theorem names_ownFields (c : Configuration) :
    (c.ownFields.map (·.1)).Sublist ["refName", "parameterGroups", "connection"] := by
  simp only [ownFields, List.map_append]
  exact (names_optionalField "refName" _ _).append
    ((names_listField "parameterGroups" _).append (names_optionalField "connection" _ _))

theorem ofDoc_toDoc (c : Configuration) :
    ofDoc (.named c.fields) = .ok { c with
      attributes := c.attributes.mapMetadata Datum.settled
      connection := c.connection.map (·.mapMetadata Datum.settled) } := by
  have hrefName : setAll setField {} (optionalField "refName" Doc.text c.refName) =
      .ok { refName := c.refName } :=
    setAll_optionalField (fun h => by rw [h]) fun name h => by rw [h]; rfl
  have hgroups : setAll setField { refName := c.refName }
      (listField "parameterGroups" (c.groups.map ParameterGroup.toDoc)) =
        .ok { refName := c.refName, groups := c.groups } := by
    refine setAll_listField (fun h => by rw [h]) ?_
    simp [setField, ParameterGroup.listOfDoc_toDoc]
  have hconnection : setAll setField { refName := c.refName, groups := c.groups }
      (optionalField "connection" (fun n : Connection => .named n.fields) c.connection) = .ok {
        refName := c.refName
        groups := c.groups
        connection := c.connection.map (·.mapMetadata Datum.settled) } := by
    refine setAll_optionalField (fun h => by rw [h]; rfl) fun n h => ?_
    have hread := Connection.ofDoc_toDoc n
    rw [Doc.named] at hread
    simp [setField, Doc.named, hread, h]
  have hset : setAll setField {} c.ownFields = .ok {
      refName := c.refName
      groups := c.groups
      connection := c.connection.map (·.mapMetadata Datum.settled) } := by
    rw [ownFields, Doc.setAll_append, hrefName, ok_bind, Doc.setAll_append, hgroups, ok_bind,
      hconnection]
  obtain ⟨hread, hattributes⟩ := c.attributes.readFields_append c.names_ownFields (by decide)
    (by decide) hset
  rw [Doc.named, fields_eq, ofDoc, hread, ok_bind, hattributes]
  rfl

end Configuration

/-! ## Components -/

namespace Component

theorem docs_eq_map (cs : List Component) : docs cs = cs.map fun c => .named c.fields := by
  induction cs with
  | nil => rfl
  | cons c rest ih => rw [docs, ih, List.map_cons]

def ownFields (c : Component) : List (String × Doc) :=
  optionalField "configRef" Doc.text c.configRef ++
    (listField "parameterGroups" (c.groups.map ParameterGroup.toDoc) ++
      (listField "components" (c.components.map fun c => .named c.fields) ++
        listField "errorHandlers" (c.errorHandlers.map fun c => .named c.fields)))

theorem fields_eq (c : Component) :
    c.fields = ("kind", .text c.kind.name) :: (c.attributes.fields ++ c.ownFields) := by
  cases c
  simp [fields, ownFields, docs_eq_map]

theorem names_ownFields (c : Component) : (c.ownFields.map (·.1)).Sublist
    ["configRef", "parameterGroups", "components", "errorHandlers"] := by
  simp only [ownFields, List.map_append]
  exact (names_optionalField "configRef" _ _).append
    ((names_listField "parameterGroups" _).append
      ((names_listField "components" _).append (names_listField "errorHandlers" _)))

def setAnyField (name : String) (d : Doc) (c : Component) : Fit Component :=
  if name = "components" then do pure { c with components := ← listOfDoc d }
  else if name = "errorHandlers" then do pure { c with errorHandlers := ← listOfDoc d }
  else setField name d c

theorem readFields_eq (seen : List String) (c : Component) (fields : List (Head × Doc)) :
    readFields seen c fields =
      Doc.readFields (Doc.textFieldName fieldNames) setAnyField seen c fields := by
  induction fields generalizing seen c with
  | nil => rfl
  | cons field rest ih =>
      obtain ⟨key, d⟩ := field
      unfold readFields Doc.readFields
      congr 1
      funext known
      cases known with
      | none => exact ih seen c
      | some name =>
          by_cases hseen : name ∈ seen
          · simp [hseen]
          · by_cases hcomponents : name = "components"
            · simp [hcomponents, setAnyField, ih]
            · by_cases hhandlers : name = "errorHandlers"
              · simp [hhandlers, setAnyField, ih]
              · simp [hseen, hcomponents, hhandlers, setAnyField, ih]

theorem listOfDoc_toDoc {cs : List Component}
    (h : ∀ c ∈ cs, ofDoc (.named c.fields) = .ok (c.mapMetadata Datum.settled)) :
    listOfDoc (.list (cs.map fun c => .named c.fields)) =
      .ok (cs.map (mapMetadata Datum.settled)) := by
  rw [listOfDoc]
  induction cs with
  | nil => rfl
  | cons c rest ih =>
      obtain ⟨hc, hrest⟩ := List.forall_mem_cons.1 h
      simp [ofDocs, hc, ih hrest]

theorem setAll_ownFields {c : Component}
    (h : ∀ child ∈ c.children, ofDoc (.named child.fields) =
      .ok (child.mapMetadata Datum.settled)) :
    setAll setAnyField {} (("kind", .text c.kind.name) :: c.ownFields) = .ok {
      kind := c.kind
      configRef := c.configRef
      groups := c.groups
      components := c.components.map (mapMetadata Datum.settled)
      errorHandlers := c.errorHandlers.map (mapMetadata Datum.settled) } := by
  obtain ⟨hcomponents, hhandlers⟩ := List.forall_mem_append.1 h
  have hkind : setAll setAnyField {} [("kind", .text c.kind.name)] = .ok { kind := c.kind } := by
    rw [Doc.setAll_singleton]
    cases c.kind <;> rfl
  have hconfigRef : setAll setAnyField { kind := c.kind }
      (optionalField "configRef" Doc.text c.configRef) =
        .ok { kind := c.kind, configRef := c.configRef } :=
    setAll_optionalField (fun h => by rw [h]) fun name h => by rw [h]; rfl
  have hgroups : setAll setAnyField { kind := c.kind, configRef := c.configRef }
      (listField "parameterGroups" (c.groups.map ParameterGroup.toDoc)) =
        .ok { kind := c.kind, configRef := c.configRef, groups := c.groups } := by
    refine setAll_listField (fun h => by rw [h]) ?_
    simp [setAnyField, setField, ParameterGroup.listOfDoc_toDoc]
  have hchildren : setAll setAnyField
      { kind := c.kind, configRef := c.configRef, groups := c.groups }
      (listField "components" (c.components.map fun c => .named c.fields)) = .ok {
        kind := c.kind
        configRef := c.configRef
        groups := c.groups
        components := c.components.map (mapMetadata Datum.settled) } := by
    refine setAll_listField (fun h => by rw [h]; rfl) ?_
    simp [setAnyField, listOfDoc_toDoc hcomponents]
  unfold ownFields
  rw [← List.singleton_append, Doc.setAll_append, hkind, ok_bind, Doc.setAll_append, hconfigRef,
    ok_bind, Doc.setAll_append, hgroups, ok_bind,
    Doc.setAll_append, hchildren, ok_bind]
  refine setAll_listField (fun h => by rw [h]; rfl) ?_
  simp [setAnyField, listOfDoc_toDoc hhandlers]

theorem ofDoc_toDoc (c : Component) :
    ofDoc (.named c.fields) = .ok (c.mapMetadata Datum.settled) := by
  induction c using induct with
  | step c ih =>
      -- The kind comes before the attributes and the other own fields behind them.
      have hnames : (c.ownFields.map (·.1)).Sublist fieldNames :=
        c.names_ownFields.trans (List.sublist_cons_self _ _)
      obtain ⟨hown, hattributes⟩ := c.attributes.select_fields_append hnames (by decide)
      have hselect : select fieldNames
          (("kind", .text c.kind.name) :: (c.attributes.fields ++ c.ownFields)) =
            ("kind", .text c.kind.name) :: c.ownFields := by
        rw [Doc.select_cons_of_mem (show "kind" ∈ fieldNames by decide), hown]
      have hselect' : select Attributes.fieldNames
          (("kind", .text c.kind.name) :: (c.attributes.fields ++ c.ownFields)) =
            c.attributes.fields := by
        rw [Doc.select_cons_of_notMem (show "kind" ∉ Attributes.fieldNames by decide), hattributes]
      have hread := Doc.readFields_written (Doc.textFieldName_text fieldNames) (by decide)
        hselect (c.names_ownFields.cons_cons "kind") (setAll_ownFields ih)
      have hseen : Doc.require ["kind"]
          ((("kind", Doc.text c.kind.name) :: c.ownFields).map (·.1)).reverse = .ok () := by
        apply Doc.require_eq_ok
        simp
      rw [Doc.named, fields_eq, ofDoc, readFields_eq, hread, ok_bind,
        Attributes.ofFields_written hselect', mapMetadata_eq]
      simp only [hseen, ok_bind, pure_eq_ok]

end Component

/-! ## Constructs, top-level parameters and elements -/

namespace Construct

def ownFields (c : Construct) : List (String × Doc) :=
  optionalField "refName" Doc.text c.refName ++
    (listField "parameterGroups" (c.groups.map ParameterGroup.toDoc) ++
      (listField "components" (c.components.map fun c => .named c.fields) ++
        listField "errorHandlers" (c.errorHandlers.map fun c => .named c.fields)))

theorem fields_eq (c : Construct) : c.fields = c.attributes.fields ++ c.ownFields := by
  simp [fields, ownFields, Component.docs_eq_map]

theorem names_ownFields (c : Construct) : (c.ownFields.map (·.1)).Sublist
    ["refName", "parameterGroups", "components", "errorHandlers"] := by
  simp only [ownFields, List.map_append]
  exact (names_optionalField "refName" _ _).append
    ((names_listField "parameterGroups" _).append
      ((names_listField "components" _).append (names_listField "errorHandlers" _)))

theorem ofDoc_toDoc (c : Construct) :
    ofDoc (.named c.fields) = .ok { c with
      attributes := c.attributes.mapMetadata Datum.settled
      components := c.components.map (·.mapMetadata Datum.settled)
      errorHandlers := c.errorHandlers.map (·.mapMetadata Datum.settled) } := by
  have hlist (cs : List Component) :
      Component.listOfDoc (.list (cs.map fun c => .named c.fields)) =
        .ok (cs.map (·.mapMetadata Datum.settled)) :=
    Component.listOfDoc_toDoc fun c _ => c.ofDoc_toDoc
  have hrefName : setAll setField {} (optionalField "refName" Doc.text c.refName) =
      .ok { refName := c.refName } :=
    setAll_optionalField (fun h => by rw [h]) fun name h => by rw [h]; rfl
  have hgroups : setAll setField { refName := c.refName }
      (listField "parameterGroups" (c.groups.map ParameterGroup.toDoc)) =
        .ok { refName := c.refName, groups := c.groups } := by
    refine setAll_listField (fun h => by rw [h]) ?_
    simp [setField, ParameterGroup.listOfDoc_toDoc]
  have hcomponents : setAll setField { refName := c.refName, groups := c.groups }
      (listField "components" (c.components.map fun c => .named c.fields)) = .ok {
        refName := c.refName
        groups := c.groups
        components := c.components.map (·.mapMetadata Datum.settled) } := by
    refine setAll_listField (fun h => by rw [h]; rfl) ?_
    simp [setField, hlist]
  have hset : setAll setField {} c.ownFields = .ok {
      refName := c.refName
      groups := c.groups
      components := c.components.map (·.mapMetadata Datum.settled)
      errorHandlers := c.errorHandlers.map (·.mapMetadata Datum.settled) } := by
    rw [ownFields, Doc.setAll_append, hrefName, ok_bind, Doc.setAll_append, hgroups, ok_bind,
      Doc.setAll_append, hcomponents, ok_bind]
    refine setAll_listField (fun h => by rw [h]; rfl) ?_
    simp [setField, hlist]
  obtain ⟨hread, hattributes⟩ := c.attributes.readFields_append c.names_ownFields (by decide)
    (by decide) hset
  rw [Doc.named, fields_eq, ofDoc, hread, ok_bind, hattributes]
  rfl

end Construct

namespace TopLevelParameter

def ownFields (p : TopLevelParameter) : List (String × Doc) :=
  optionalField "refName" Doc.text p.refName ++ [("value", p.value.toDoc)]

theorem fields_eq (p : TopLevelParameter) : p.fields = p.attributes.fields ++ p.ownFields := by
  simp [fields, ownFields]

theorem names_ownFields (p : TopLevelParameter) :
    (p.ownFields.map (·.1)).Sublist ["refName", "value"] := by
  simp only [ownFields, List.map_append]
  exact (names_optionalField "refName" _ _).append (List.Sublist.refl _)

theorem ofDoc_toDoc (p : TopLevelParameter) :
    ofDoc (.named p.fields) =
      .ok { p with attributes := p.attributes.mapMetadata Datum.settled } := by
  have hrefName : setAll setField {} (optionalField "refName" Doc.text p.refName) =
      .ok { refName := p.refName } :=
    setAll_optionalField (fun h => by rw [h]) fun name h => by rw [h]; rfl
  have hset : setAll setField {} p.ownFields =
      .ok { refName := p.refName, value := p.value } := by
    rw [ownFields, Doc.setAll_append, hrefName, ok_bind, Doc.setAll_singleton]
    simp [setField, ObjectValue.ofDoc_toDoc]
  obtain ⟨hread, hattributes⟩ := p.attributes.readFields_append p.names_ownFields (by decide)
    (by decide) hset
  rw [Doc.named, fields_eq, ofDoc, hread, ok_bind, hattributes]
  rfl

end TopLevelParameter

theorem GlobalElement.ofContent_fields (e : GlobalElement) :
    ofContent e.kind (.named e.fields) = .ok (e.mapMetadata Datum.settled) := by
  cases e with
  | configuration c => simp [ofContent, kind, fields, Configuration.ofDoc_toDoc, mapMetadata]
  | construct c => simp [ofContent, kind, fields, Construct.ofDoc_toDoc, mapMetadata]
  | topLevelParameter p =>
      simp [ofContent, kind, fields, TopLevelParameter.ofDoc_toDoc, mapMetadata]

end FlowArtifact
