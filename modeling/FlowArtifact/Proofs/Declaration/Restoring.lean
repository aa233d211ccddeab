import FlowArtifact.Proofs.Declaration.Reading
import FlowArtifact.Proofs.Declaration.Written
import FlowArtifact.Proofs.Source.Rendering

/-!
# Restoring artifacts

The document of an artifact is read back to the artifact with its metadata
settled.  A source that renders this document is legible, so the artifact is read
from the source as it is read from the document.
-/

namespace FlowArtifact

namespace GlobalElement

theorem forall_name_ne_kind (e : GlobalElement) : ∀ field ∈ e.fields, field.1 ≠ "kind" := by
  have hnames {attributes : Attributes} {own : List (String × Doc)} {known : List String}
      (hown : (own.map (·.1)).Sublist known) (hkind : "kind" ∉ Attributes.fieldNames ++ known) :
      ∀ field ∈ attributes.fields ++ own, field.1 ≠ "kind" := by
    have hsublist : ((attributes.fields ++ own).map (·.1)).Sublist
        (Attributes.fieldNames ++ known) := by
      rw [List.map_append]
      exact attributes.names_fields.append hown
    intro field hfield heq
    exact hkind (heq ▸ hsublist.subset (List.mem_map_of_mem hfield))
  cases e with
  | configuration c =>
      rw [fields, c.fields_eq]
      exact hnames c.names_ownFields (by decide)
  | construct c =>
      rw [fields, c.fields_eq]
      exact hnames c.names_ownFields (by decide)
  | topLevelParameter p =>
      rw [fields, p.fields_eq]
      exact hnames p.names_ownFields (by decide)

theorem splitKind?_keyed {fields rest : List (String × Doc)} (h : ∀ e ∈ fields, e.1 ≠ "kind")
    (kind : Option Kind) (done : List (Head × Doc)) :
    splitKind? kind done (Doc.keyed (fields ++ rest)) =
      splitKind? kind ((Doc.keyed fields).reverse ++ done) (Doc.keyed rest) := by
  induction fields generalizing done with
  | nil => rfl
  | cons e fields ih =>
      obtain ⟨he, hfields⟩ := List.forall_mem_cons.1 h
      have hkey : (Head.scalar (.text e.1)) ≠ kindKey := by simpa [kindKey] using he
      have hsplit := ih hfields ((.scalar (.text e.1), e.2) :: done)
      simp only [Doc.keyed] at hsplit
      simp only [Doc.keyed, List.cons_append, List.map_cons, splitKind?, hkey, if_false, hsplit,
        List.reverse_cons, List.append_assoc, List.nil_append]

theorem ofDoc?_toDoc (e : GlobalElement) : ofDoc? e.toDoc = some (e.mapMetadata Datum.settled) := by
  have hkind : kindOf? (.text e.kind.name) = some e.kind := by
    cases e <;> rfl
  have hsplit : splitKind? none [] ((kindKey, .text e.kind.name) :: Doc.keyed e.fields) =
      some (e.kind, (Doc.keyed e.fields).reverse) := by
    have hfields : splitKind? (some e.kind) [] (Doc.keyed (e.fields ++ [])) =
        some (e.kind, (Doc.keyed e.fields).reverse ++ []) :=
      splitKind?_keyed e.forall_name_ne_kind _ _
    rw [List.append_nil, List.append_nil] at hfields
    rw [splitKind?, if_pos rfl, hkind, Option.bind_some, hfields]
  have hcontent := e.ofContent_fields
  rw [Doc.named] at hcontent
  have hread : ofDoc? e.toDoc =
      (splitKind? none [] ((kindKey, .text e.kind.name) :: Doc.keyed e.fields)).bind
        fun r => (ofContent r.1 (.record r.2.reverse)).toOption := rfl
  rw [hread, hsplit, Option.bind_some, List.reverse_reverse, Doc.keyed, hcontent]
  rfl

theorem listOfDoc?_toDoc (es : List GlobalElement) :
    listOfDoc? (.list (es.map toDoc)) = some (es.map (·.mapMetadata Datum.settled)) := by
  rw [listOfDoc?]
  induction es with
  | nil => rfl
  | cons e rest ih => simp [ofDoc?_toDoc, ih]

end GlobalElement

theorem Attributes.forall_name_ne_elements (a : Attributes) :
    ∀ e ∈ a.fields, e.1 ≠ "globalElements" := by
  intro e he heq
  have hmem : e.1 ∈ fieldNames := a.names_fields.subset (List.mem_map_of_mem he)
  rw [heq] at hmem
  exact absurd hmem (by decide)

namespace Artifact

theorem splitElements?_keyed {fields rest : List (String × Doc)}
    (h : ∀ e ∈ fields, e.1 ≠ "globalElements") (elements : Option (List GlobalElement))
    (others : List (Head × Doc)) :
    splitElements? elements others (Doc.keyed (fields ++ rest)) =
      splitElements? elements ((Doc.keyed fields).reverse ++ others) (Doc.keyed rest) := by
  induction fields generalizing others with
  | nil => rfl
  | cons e fields ih =>
      obtain ⟨he, hfields⟩ := List.forall_mem_cons.1 h
      have hsplit := ih hfields ((.scalar (.text e.1), e.2) :: others)
      simp only [Doc.keyed] at hsplit
      simp only [Doc.keyed, List.cons_append, List.map_cons, splitElements?, Head.name?, he,
        if_false, hsplit, List.reverse_cons, List.append_assoc, List.nil_append]

theorem ofDoc?_toDoc (a : Artifact) : ofDoc? a.toDoc = some (a.mapMetadata Datum.settled) := by
  have hattributes : Attributes.ofFields (Doc.keyed a.attributes.fields) =
      .ok (a.attributes.mapMetadata Datum.settled) :=
    Attributes.ofFields_written (Doc.select_eq_self a.attributes.names_fields)
  have hread : ofDoc? a.toDoc = splitElements? none [] (Doc.keyed (a.attributes.fields ++
      [("globalElements", .list (a.globalElements.map GlobalElement.toDoc))])) := rfl
  rw [hread, splitElements?_keyed a.attributes.forall_name_ne_elements, List.append_nil]
  simp only [Doc.keyed, List.map_cons, List.map_nil, splitElements?, Head.name?, if_true,
    GlobalElement.listOfDoc?_toDoc, Option.bind_some, List.reverse_reverse]
  rw [Doc.keyed] at hattributes
  rw [hattributes]
  rfl

end Artifact

/-! ## Sources of documents of artifacts -/

section
variable {read : Scalar → Option Scalar}

namespace Source

theorem faithful_of_isText {s : Source} {t : String} (h : s.IsText t) : s.Faithful := by
  cases s with
  | scalar spot value spelling blank =>
      obtain ⟨htag, hvalue, hspell⟩ := h
      refine ⟨htag, fun t' ht' => ?_⟩
      rcases hspell with hnone | hsome
      · rw [hnone] at ht'
        cases ht'
      · rw [hsome] at ht'
        cases ht'
        exact hvalue
  | _ => trivial

theorem all_of_rendersFields {p : Source → Source → Prop} {fs : List (String × Doc)}
    {fields : Fields} (hfields : RendersFields read fields (Doc.keyed fs))
    (h : ∀ e ∈ fs, ∀ key value, key.IsText e.1 → value.Renders read e.2 → p key value) :
    fields.All p := by
  induction fs generalizing fields with
  | nil =>
      cases hfields
      trivial
  | cons e rest ih =>
      obtain ⟨he, hrest⟩ := List.forall_mem_cons.1 h
      rw [Doc.keyed, List.map_cons] at hfields
      cases hfields with
      | field hkey hvalue hfields => exact ⟨he _ _ hkey hvalue, ih hfields hrest⟩

theorem all_of_rendersItems {p : Source → Prop} {ds : List Doc} {items : Items}
    (hitems : RendersItems read items ds) (h : ∀ d ∈ ds, ∀ s, s.Renders read d → p s) :
    items.All p := by
  induction ds generalizing items with
  | nil =>
      cases hitems
      trivial
  | cons d rest ih =>
      obtain ⟨hd, hrest⟩ := List.forall_mem_cons.1 h
      cases hitems with
      | item hitem hitems => exact ⟨hd _ hitem, ih hitems hrest⟩

end Source

section
variable (hread : ∀ t, read (.text t) = some (.text t))
include hread

theorem Source.faithful_of_renders {s : Source} {d : Doc} (h : s.Renders read d)
    (hd : ∀ x, d = .scalar x → ∃ t, x = .text t) : s.Faithful := by
  cases hs : s with
  | scalar spot value spelling blank =>
      rw [← hs]
      cases h with
      | scalar htag hvalue hspell =>
          obtain ⟨t, rfl⟩ := hd _ rfl
          exact faithful_of_isText (isText_of_renders (hread t) (.scalar htag hvalue hspell))
      | _ => trivial
  | _ => trivial

namespace GlobalElement

omit hread in
/-- A scalar that is the value of a field is a text. -/
theorem exists_eq_text (e : GlobalElement) :
    ∀ field ∈ e.fields, ∀ x, field.2 = .scalar x → ∃ t, x = .text t := by
  let p (d : Doc) : Prop := ∀ x, d = .scalar x → ∃ t, x = .text t
  have htext (t : String) : p (.text t) := by
    rintro x ⟨⟩
    exact ⟨t, rfl⟩
  have hlist (ds : List Doc) : p (.list ds) := by
    rintro x ⟨⟩
  have hnamed (fs : List (String × Doc)) : p (.named fs) := by
    rintro x ⟨⟩
  have hown (a : Attributes) : ∀ field ∈ a.fields, p field.2 :=
    Attributes.forall_mem_fields htext (hnamed _) (hlist _)
  cases e with
  | configuration c =>
      exact Configuration.forall_mem_fields (p := p) htext (hown _) (hlist _) fun n _ => hnamed _
  | construct c =>
      exact Construct.forall_mem_fields (p := p) htext (hown _) (hlist _) (hlist _) (hlist _)
  | topLevelParameter q =>
      apply TopLevelParameter.forall_mem_fields (p := p) htext (hown _)
      rw [ObjectValue.toDoc, ObjectValue.toValue, Value.toDoc_record]
      exact hnamed _

theorem legible_of_renders {s : Source} {e : GlobalElement} (h : s.Renders read e.toDoc) :
    Legible s := by
  rw [toDoc, Doc.named] at h
  cases h with
  | record htag hfields =>
      refine Source.all_of_rendersFields hfields ?_
      rw [List.forall_mem_cons]
      refine ⟨fun key value _ hvalue => ?_, fun field hfield key value _ hvalue => ?_⟩
      · exact Source.faithful_of_renders hread hvalue fun x hx => ⟨_, by cases hx; rfl⟩
      · exact Source.faithful_of_renders hread hvalue (e.exists_eq_text field hfield)

end GlobalElement

/-- A source of the document of an artifact spells its texts as they are. -/
theorem Artifact.legible_of_renders {s : Source} {a : Artifact} (h : s.Renders read a.toDoc) :
    Legible s := by
  rw [toDoc, Doc.named] at h
  cases h with
  | record htag hfields =>
      refine ⟨htag, Source.all_of_rendersFields hfields ?_⟩
      rw [List.forall_mem_append, List.forall_mem_singleton]
      refine ⟨fun field hfield key value hkey _ => ?_, fun key value hkey hvalue => ?_⟩
      · refine ⟨Source.faithful_of_isText hkey, fun hname => ?_⟩
        rw [Source.asText?_eq_some hkey] at hname
        exact absurd (Option.some.inj hname) (a.attributes.forall_name_ne_elements field hfield)
      · refine ⟨Source.faithful_of_isText hkey, fun _ => ?_⟩
        cases hvalue with
        | list htag hitems =>
            refine ⟨htag, Source.all_of_rendersItems hitems ?_⟩
            rw [List.forall_mem_map]
            exact fun e _ s hs => GlobalElement.legible_of_renders hread hs

end

end

end FlowArtifact
