import FlowArtifact.Declaration.Builder
import FlowArtifact.Proofs.Declaration.Document
import FlowArtifact.Proofs.Json.Compact
import FlowArtifact.Proofs.Nest.Filling
import FlowArtifact.Serialization
import Mathlib.Logic.Relation

/-!
# Filling values and declarations

Parameters of objects and of groups, and metadata of declarations, are given one
after another under names.  Neither the order of the names nor what was given
before the last value of a name can be seen in what is built, in its text, or in
the fingerprint of an artifact that holds it.  Of objects nothing else is lost:
those with other type ids or other values have other texts.
-/

namespace FlowArtifact

open Json (compact recordText ListsLast)
open NameMap (SameLast)

/-- What is built from entries that are given one after another, where `first` were given
already.  The entries are written as a record under `key`, which may be left out if it is empty,
and nothing else of the text depends on them. -/
structure Canonical {α β : Type} (build : List (String × α) → β) (first : List (String × α))
    (value : α → Doc) (doc : β → Doc) (key : String) : Prop where
  same : ∀ ps qs, SameLast ps qs →
    build ps = build qs ∧ compact (doc (build ps)) = compact (doc (build qs))
  text : ∃ before after : List (String × String), (∀ e ∈ before ++ after, e.1 ≠ key) ∧
    ∀ ps, ∃ entries field,
      ListsLast ((first ++ ps).map fun e => (e.1, compact (value e.2))) entries ∧
        (field = [(key, recordText entries)] ∨ entries = [] ∧ field = []) ∧
        compact (doc (build ps)) = recordText (before ++ field ++ after)

/-- The entries are put as a map among fields that do not depend on them. -/
theorem canonical_of_put {α β : Type} {build : List (String × α) → β} {first : List (String × α)}
    {value : α → Doc} {doc : β → Doc} {key : String} (put : NameMap α → β)
    (hbuild : ∀ ps, build ps = put (.ofList (first ++ ps))) (before after : List (String × Doc))
    (hkey : ∀ e ∈ before ++ after, e.1 ≠ key) (field : NameMap α → List (String × Doc))
    (hfield : ∀ m, field m = [(key, .named (m.map value).entries)] ∨ m.entries = [] ∧ field m = [])
    (hdoc : ∀ m, doc (put m) = .named (before ++ field m ++ after)) :
    Canonical build first value doc key where
  same ps qs h := by
    have hmap : NameMap.ofList (first ++ ps) = .ofList (first ++ qs) :=
      NameMap.ofList_eq_iff.2 (h.append_left first)
    have hsame : build ps = build qs := by rw [hbuild, hbuild, hmap]
    exact ⟨hsame, by rw [hsame]⟩
  text := by
    let written (fields : List (String × Doc)) : List (String × String) :=
      fields.map fun e => (e.1, compact e.2)
    refine ⟨written before, written after, ?_, fun ps => ?_⟩
    · rw [← List.map_append, List.forall_mem_map]
      exact hkey
    · let m : NameMap α := .ofList (first ++ ps)
      refine ⟨(m.map fun a => compact (value a)).entries, written (field m),
        Json.listsLast_ofList (fun a => compact (value a)) _, ?_, ?_⟩
      · rcases hfield m with hfield | ⟨hempty, hfield⟩
        · left
          have hentries : written (m.map value).entries =
              (m.map fun a => compact (value a)).entries := List.map_map
          rw [hfield, ← hentries, ← Json.compact_named]
          rfl
        · right
          rw [NameMap.entries_map, hempty, hfield]
          exact ⟨rfl, rfl⟩
      · rw [hbuild, hdoc, Json.compact_named, List.map_append, List.map_append]

/-! ## Objects -/

namespace Value

instance : LawfulBEq Value where
  eq_of_beq h := Nest.same_iff_eq.1 h
  rfl := Nest.same_iff_eq.2 rfl

theorem compact_toDoc_inj {v w : Value} : compact (toDoc v) = compact (toDoc w) ↔ v = w := by
  constructor
  · intro h
    have hrestored (v : Value) : Json.Restored (toDoc v) := over_toDoc (fun _ => rfl) v
    have hdoc := Json.eq_of_compact_eq (hrestored v) (hrestored w) h
    apply Option.some.inj
    rw [← ofDoc?_toDoc v, hdoc, ofDoc?_toDoc w]
  · exact congrArg fun v => compact (toDoc v)

theorem object_eq_iff {t t' : Option String} {ps qs : List (String × Value)} :
    object t ps = object t' qs ↔ t = t' ∧ SameLast ps qs := by
  unfold object
  rw [Nest.record_inj, NameMap.ofList_eq_iff]

theorem canonical_object (t : Option String) :
    Canonical (object t) [] toDoc toDoc "parameters" := by
  refine canonical_of_put (.record t) (fun _ => rfl)
    (("type", .text "object") :: t.toList.map fun t => ("typeId", .text t)) [] ?_ _
    (fun _ => .inl rfl) fun parameters => ?_
  · cases t <;> simp
  · rw [toDoc_record, List.append_nil]

example : compact (Value.object none
      [("z", .simple "1"), ("é", .simple "2"), ("a", .simple "3"), ("z", .simple "4")]).toDoc =
    "\x7b\"type\":\"object\",\"parameters\":\x7b\"a\":\"3\",\"z\":\"4\",\"é\":\"2\"\x7d\x7d" := by
  decide +kernel

end Value

/-! ## Groups -/

namespace ParameterGroup

def withParameters (g : ParameterGroup) (ps : List (String × Value)) : ParameterGroup :=
  ps.foldl (fun g e => g.withParameter e.1 e.2) g

theorem withParameters_eq (g : ParameterGroup) (ps : List (String × Value)) :
    g.withParameters ps = { g with parameters := .ofList (g.parameters.entries ++ ps) } := by
  have hfill : g.withParameters ps =
      { g with parameters := ps.foldl (fun m e => m.insert e.1 e.2) g.parameters } := by
    induction ps generalizing g with
    | nil => rfl
    | cons e rest ih => exact ih (g.withParameter e.1 e.2)
  rw [hfill, NameMap.foldl_insert_eq_ofList]

theorem canonical_withParameters (g : ParameterGroup) :
    Canonical g.withParameters g.parameters.entries Value.toDoc toDoc "parameters" :=
  canonical_of_put (fun m => { g with parameters := m }) g.withParameters_eq
    [("name", .text g.name)] [] (by simp) _ (fun _ => .inl rfl) fun _ => rfl

end ParameterGroup

/-! ## Metadata -/

namespace Attributes

def metadataField (m : NameMap Datum) : List (String × Doc) :=
  if m.isEmpty then [] else [("metadataProperties", .named (m.map Datum.toDoc).entries)]

theorem metadataField_eq (m : NameMap Datum) :
    metadataField m = [("metadataProperties", .named (m.map Datum.toDoc).entries)] ∨
      m.entries = [] ∧ metadataField m = [] := by
  unfold metadataField
  cases hm : m.isEmpty with
  | false => exact .inl rfl
  | true => exact .inr ⟨List.isEmpty_iff.1 hm, rfl⟩

theorem exists_fields_eq (a : Attributes) : ∃ before after : List (String × Doc),
    (∀ e ∈ before ++ after, e.1 ≠ "metadataProperties") ∧
      ∀ m, { a with metadata := m }.fields = before ++ metadataField m ++ after := by
  refine ⟨("name", .text a.name) ::
    if a.extension = "" then [] else [("declaringExtension", .text a.extension)],
    listField "customConfigurationParameters" (a.custom.map Parameter.toDoc), ?_, fun _ => rfl⟩
  rw [List.forall_mem_append]
  constructor
  · split <;> simp
  · unfold listField
    split <;> simp

end Attributes

/-- Declarations, by the fields of their records: those of the attributes stand among others. -/
class Declared (δ : Type) extends Attributed δ where
  fields : δ → List (String × Doc)
  modifyAttributes_id : ∀ d, modifyAttributes id d = d := by exact fun _ => rfl
  modifyAttributes_comp : ∀ f g d,
    modifyAttributes f (modifyAttributes g d) = modifyAttributes (f ∘ g) d := by
      exact fun _ _ _ => rfl
  modifyAttributes_const : ∀ f d,
    modifyAttributes f d = modifyAttributes (fun _ => f (attributes d)) d := by
      exact fun _ _ => rfl
  fields_modifyAttributes : ∀ d, ∃ before after,
    (∀ e ∈ before ++ after, e.1 ∉ Attributes.fieldNames) ∧
      ∀ f, fields (modifyAttributes f d) = before ++ (f (attributes d)).fields ++ after

namespace Declared

theorem notMem_fieldNames {own : List (String × Doc)} {names : List String}
    (h : (own.map (·.1)).Sublist names) (hdisjoint : ∀ name ∈ names, name ∉ Attributes.fieldNames) :
    ∀ e ∈ own, e.1 ∉ Attributes.fieldNames :=
  fun _ he => hdisjoint _ (h.subset (List.mem_map_of_mem he))

instance : Declared Artifact where
  fields a := a.attributes.fields ++
    [("globalElements", .list (a.globalElements.map GlobalElement.toDoc))]
  fields_modifyAttributes a :=
    ⟨[], [("globalElements", .list (a.globalElements.map GlobalElement.toDoc))],
      by simp [Attributes.fieldNames], fun _ => rfl⟩

instance : Declared TopLevelParameter where
  fields := TopLevelParameter.fields
  fields_modifyAttributes p :=
    ⟨[], p.ownFields, notMem_fieldNames p.names_ownFields (by decide),
      fun _ => TopLevelParameter.fields_eq _⟩

instance : Declared Configuration where
  fields := Configuration.fields
  fields_modifyAttributes c :=
    ⟨[], c.ownFields, notMem_fieldNames c.names_ownFields (by decide),
      fun _ => Configuration.fields_eq _⟩

instance : Declared Connection where
  fields := Connection.fields
  fields_modifyAttributes n :=
    ⟨[], n.ownFields, notMem_fieldNames n.names_ownFields (by decide),
      fun _ => Connection.fields_eq _⟩

instance : Declared Construct where
  fields := Construct.fields
  fields_modifyAttributes c :=
    ⟨[], c.ownFields, notMem_fieldNames c.names_ownFields (by decide),
      fun _ => Construct.fields_eq _⟩

instance : Declared Component where
  fields := Component.fields
  modifyAttributes_id c := by
    cases c
    rfl
  fields_modifyAttributes c := by
    refine ⟨[("kind", .text c.kind.name)], c.ownFields, ?_, fun _ => Component.fields_eq _⟩
    rw [List.forall_mem_append, List.forall_mem_singleton]
    exact ⟨by simp [Attributes.fieldNames], notMem_fieldNames c.names_ownFields (by decide)⟩

variable {δ : Type} [Declared δ]

def toDoc (d : δ) : Doc := .named (fields d)

def withProperties (d : δ) (ps : List (String × Datum)) : δ :=
  ps.foldl (fun d e => withMetadata e.1 e.2 d) d

def putMetadata (d : δ) (m : NameMap Datum) : δ :=
  Attributed.modifyAttributes (fun _ => { Attributed.attributes d with metadata := m }) d

theorem withProperties_eq (d : δ) (ps : List (String × Datum)) : withProperties d ps =
    putMetadata d (.ofList ((Attributed.attributes d).metadata.entries ++ ps)) := by
  have hfill (d : δ) : withProperties d ps = Attributed.modifyAttributes
      (fun a => { a with metadata := ps.foldl (fun m e => m.insert e.1 e.2) a.metadata }) d := by
    induction ps generalizing d with
    | nil => exact (modifyAttributes_id d).symm
    | cons e rest ih =>
        exact (ih _).trans (modifyAttributes_comp _ _ d)
  rw [hfill, modifyAttributes_const, NameMap.foldl_insert_eq_ofList]
  rfl

theorem canonical_withProperties (d : δ) :
    Canonical (withProperties d) (Attributed.attributes d).metadata.entries Datum.toDoc toDoc
      "metadataProperties" := by
  obtain ⟨front, rear, hnames, hfields⟩ := fields_modifyAttributes d
  obtain ⟨before, after, hkey, hattributes⟩ := (Attributed.attributes d).exists_fields_eq
  have hown : ∀ e ∈ front ++ rear, e.1 ≠ "metadataProperties" := by
    intro e he heq
    exact hnames e he (heq ▸ by decide)
  refine canonical_of_put (putMetadata d) (withProperties_eq d) (front ++ before) (after ++ rear) ?_
    Attributes.metadataField Attributes.metadataField_eq fun m => ?_
  · simp only [List.forall_mem_append] at hkey hown ⊢
    exact ⟨⟨hown.1, hkey.1⟩, hkey.2, hown.2⟩
  · unfold toDoc putMetadata
    rw [hfields, hattributes]
    simp only [List.append_assoc]

end Declared

/-! ## Artifacts -/

/-- Artifacts that are made by the same steps from things that were filled in other orders. -/
inductive Artifact.Refilled : Artifact → Artifact → Prop
  | object {a b : Artifact} (rest : ObjectValue → Except Error Artifact) (t : Option String)
      {ps qs : List (String × Value)} (h : SameLast ps qs)
      (ha : rest ⟨t, .ofList ps⟩ = .ok a) (hb : rest ⟨t, .ofList qs⟩ = .ok b) : Refilled a b
  | group {a b : Artifact} (rest : ParameterGroup → Except Error Artifact) (g : ParameterGroup)
      {ps qs : List (String × Value)} (h : SameLast ps qs)
      (ha : rest (g.withParameters ps) = .ok a) (hb : rest (g.withParameters qs) = .ok b) :
      Refilled a b
  | metadata {a b : Artifact} {δ : Type} [Declared δ] (rest : δ → Except Error Artifact) (d : δ)
      {ps qs : List (String × Datum)} (h : SameLast ps qs)
      (ha : rest (Declared.withProperties d ps) = .ok a)
      (hb : rest (Declared.withProperties d qs) = .ok b) : Refilled a b

theorem Artifact.eq_of_refilled {a b : Artifact} (h : Refilled a b) : a = b := by
  cases h with
  | object rest t h ha hb =>
      rw [NameMap.ofList_eq_iff.2 h, hb] at ha
      exact (Except.ok.inj ha).symm
  | group rest g h ha hb =>
      rw [(g.canonical_withParameters.same _ _ h).1, hb] at ha
      exact (Except.ok.inj ha).symm
  | metadata rest d h ha hb =>
      rw [((Declared.canonical_withProperties d).same _ _ h).1, hb] at ha
      exact (Except.ok.inj ha).symm

/-- Fingerprints do not tell in which order things were filled, at however many places. -/
theorem Artifact.fingerprint_eq_of_refilled {a b : Artifact}
    (h : Relation.ReflTransGen Refilled a b) : a.fingerprint = b.fingerprint := by
  induction h with
  | refl => rfl
  | tail _ hstep ih => rw [ih, eq_of_refilled hstep]

/-- Named entries are written in the order of the octets of their names, each with its last value,
and what is built, its text and its fingerprint depend on nothing but these last values.  Objects
that differ in them or in their type ids are different and have different texts; so do values that
are built of objects, at any depth. -/
theorem filling_is_canonical :
    (∀ t, Canonical (Value.object t) [] Value.toDoc Value.toDoc "parameters") ∧
    (∀ g : ParameterGroup, Canonical g.withParameters g.parameters.entries Value.toDoc
      ParameterGroup.toDoc "parameters") ∧
    (∀ (δ : Type) [Declared δ] (d : δ), Canonical (Declared.withProperties d)
      (Attributed.attributes d).metadata.entries Datum.toDoc Declared.toDoc
      "metadataProperties") ∧
    (∀ t t' ps qs,
      ((Value.object t ps == Value.object t' qs) = true ↔ t = t' ∧ SameLast ps qs) ∧
      (compact (Value.object t ps).toDoc = compact (Value.object t' qs).toDoc ↔
        t = t' ∧ SameLast ps qs)) ∧
    (∀ s s' : Shape Simple (Option String),
      (((Nest.ofShape s : Value) == (Nest.ofShape s' : Value)) = true ↔ s.Alike s') ∧
      (compact (Value.toDoc (Nest.ofShape s)) = compact (Value.toDoc (Nest.ofShape s')) ↔
        s.Alike s')) ∧
    ∀ a b, Relation.ReflTransGen Artifact.Refilled a b → a.fingerprint = b.fingerprint := by
  refine ⟨Value.canonical_object, ParameterGroup.canonical_withParameters,
    fun _ _ => Declared.canonical_withProperties, fun t t' ps qs => ?_, fun s s' => ?_,
    fun _ _ => Artifact.fingerprint_eq_of_refilled⟩
  · rw [beq_iff_eq, Value.compact_toDoc_inj, Value.object_eq_iff]
    exact ⟨Iff.rfl, Iff.rfl⟩
  · rw [beq_iff_eq, Value.compact_toDoc_inj, Shape.ofShape_eq_iff]
    exact ⟨Iff.rfl, Iff.rfl⟩

end FlowArtifact
