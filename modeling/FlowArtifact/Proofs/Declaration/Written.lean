import FlowArtifact.Proofs.Declaration.Document

/-!
# What the documents of declarations hold

The fields of a declaration hold texts and the documents of what it owns.  All
scalars outside of metadata are therefore texts, a change of the leaves of the
metadata changes the scalars of the document alike, and the document of a legal
artifact nests no deeper than its values and its lines of components add up to.
-/

namespace FlowArtifact

/-! ## The fields of a declaration -/

section
variable {p : Doc → Prop}

theorem Attributes.forall_mem_fields {a : Attributes} (htext : ∀ t, p (.text t))
    (hmetadata : p (.named (a.metadata.map Datum.toDoc).entries))
    (hcustom : p (.list (a.custom.map Parameter.toDoc))) : ∀ e ∈ a.fields, p e.2 := by
  have hextension : ∀ e ∈ (if a.extension = "" then ([] : List (String × Doc))
      else [("declaringExtension", .text a.extension)]), p e.2 := by
    split <;> simp [htext]
  have hproperties : ∀ e ∈ (if a.metadata.isEmpty then ([] : List (String × Doc))
      else [("metadataProperties", .named (a.metadata.map Datum.toDoc).entries)]), p e.2 := by
    split
    · simp
    · simpa using hmetadata
  unfold fields
  simp only [List.forall_mem_append, List.forall_mem_cons]
  exact ⟨⟨⟨htext _, hextension⟩, hproperties⟩, forall_mem_listField hcustom⟩

theorem Connection.forall_mem_fields {n : Connection}
    (hattributes : ∀ e ∈ n.attributes.fields, p e.2)
    (hgroups : p (.list (n.groups.map ParameterGroup.toDoc))) : ∀ e ∈ n.fields, p e.2 := by
  rw [fields_eq, List.forall_mem_append]
  exact ⟨hattributes, forall_mem_listField hgroups⟩

theorem Configuration.forall_mem_fields {c : Configuration} (htext : ∀ t, p (.text t))
    (hattributes : ∀ e ∈ c.attributes.fields, p e.2)
    (hgroups : p (.list (c.groups.map ParameterGroup.toDoc)))
    (hconnection : ∀ n, c.connection = some n → p (.named n.fields)) :
    ∀ e ∈ c.fields, p e.2 := by
  rw [fields_eq, ownFields]
  simp only [List.forall_mem_append]
  exact ⟨hattributes, forall_mem_optionalField fun _ _ => htext _, forall_mem_listField hgroups,
    forall_mem_optionalField hconnection⟩

theorem Component.forall_mem_fields {c : Component} (htext : ∀ t, p (.text t))
    (hattributes : ∀ e ∈ c.attributes.fields, p e.2)
    (hgroups : p (.list (c.groups.map ParameterGroup.toDoc)))
    (hcomponents : p (.list (c.components.map fun c => .named c.fields)))
    (hhandlers : p (.list (c.errorHandlers.map fun c => .named c.fields))) :
    ∀ e ∈ c.fields, p e.2 := by
  rw [fields_eq, ownFields]
  simp only [List.forall_mem_append, List.forall_mem_cons]
  exact ⟨htext _, hattributes, forall_mem_optionalField fun _ _ => htext _,
    forall_mem_listField hgroups, forall_mem_listField hcomponents, forall_mem_listField hhandlers⟩

theorem Construct.forall_mem_fields {c : Construct} (htext : ∀ t, p (.text t))
    (hattributes : ∀ e ∈ c.attributes.fields, p e.2)
    (hgroups : p (.list (c.groups.map ParameterGroup.toDoc)))
    (hcomponents : p (.list (c.components.map fun c => .named c.fields)))
    (hhandlers : p (.list (c.errorHandlers.map fun c => .named c.fields))) :
    ∀ e ∈ c.fields, p e.2 := by
  rw [fields_eq, ownFields]
  simp only [List.forall_mem_append]
  exact ⟨hattributes, forall_mem_optionalField fun _ _ => htext _, forall_mem_listField hgroups,
    forall_mem_listField hcomponents, forall_mem_listField hhandlers⟩

theorem TopLevelParameter.forall_mem_fields {q : TopLevelParameter} (htext : ∀ t, p (.text t))
    (hattributes : ∀ e ∈ q.attributes.fields, p e.2) (hvalue : p q.value.toDoc) :
    ∀ e ∈ q.fields, p e.2 := by
  rw [fields_eq, ownFields]
  simp only [List.forall_mem_append, List.forall_mem_singleton]
  exact ⟨hattributes, forall_mem_optionalField fun _ _ => htext _, hvalue⟩

end

/-! ## Scalars -/

section
variable {P : Scalar → Prop} (hP : ∀ t, P (.text t))
include hP

theorem Parameter.over_toDoc (p : Parameter) : p.toDoc.Over P := by
  simp [toDoc, hP, Value.over_toDoc hP]

theorem ParameterGroup.over_toDoc (g : ParameterGroup) : g.toDoc.Over P := by
  have hparameters : (Doc.named (g.parameters.map Value.toDoc).entries).Over P := by
    rw [Doc.over_named, NameMap.entries_map, List.forall_mem_map]
    exact fun e _ => Value.over_toDoc hP e.2
  rw [toDoc, Doc.over_named]
  simpa [hP] using hparameters

theorem ParameterGroup.over_list (groups : List ParameterGroup) :
    (Doc.list (groups.map toDoc)).Over P := by
  rw [Doc.over_list, List.forall_mem_map]
  exact fun g _ => g.over_toDoc hP

theorem Attributes.over_fields {a : Attributes}
    (h : ∀ e ∈ a.metadata.entries, e.2.toDoc.Over P) : ∀ e ∈ a.fields, e.2.Over P := by
  apply forall_mem_fields (p := Doc.Over P) hP
  · rwa [Doc.over_named, NameMap.entries_map, List.forall_mem_map]
  · rw [Doc.over_list, List.forall_mem_map]
    exact fun p _ => p.over_toDoc hP

theorem Connection.over_fields {n : Connection}
    (h : ∀ e ∈ n.attributes.metadata.entries, e.2.toDoc.Over P) :
    (Doc.named n.fields).Over P := by
  rw [Doc.over_named]
  exact forall_mem_fields (p := Doc.Over P) (Attributes.over_fields hP h)
    (ParameterGroup.over_list hP _)

theorem Component.over_fields {c : Component}
    (h : ∀ d ∈ c.subtree, ∀ e ∈ d.attributes.metadata.entries, e.2.toDoc.Over P) :
    (Doc.named c.fields).Over P := by
  induction c using induct with
  | step c ih =>
      obtain ⟨hattributes, hchildren⟩ := forall_mem_subtree_iff.1 h
      have hchild : ∀ child ∈ c.children, (Doc.named child.fields).Over P :=
        fun child hchild => ih child hchild (hchildren child hchild)
      obtain ⟨hcomponents, hhandlers⟩ := List.forall_mem_append.1 hchild
      rw [Doc.over_named]
      apply forall_mem_fields (p := Doc.Over P) hP (Attributes.over_fields hP hattributes)
        (ParameterGroup.over_list hP _)
      · rwa [Doc.over_list, List.forall_mem_map]
      · rwa [Doc.over_list, List.forall_mem_map]

theorem GlobalElement.over_toDoc {e : GlobalElement}
    (h : ∀ a ∈ e.allAttributes, ∀ m ∈ a.metadata.entries, m.2.toDoc.Over P) :
    e.toDoc.Over P := by
  obtain ⟨hattributes, hconnection, hbelow⟩ := forall_mem_allAttributes_iff.1 h
  rw [toDoc, Doc.over_named, List.forall_mem_cons]
  refine ⟨hP _, ?_⟩
  cases e with
  | configuration c =>
      exact Configuration.forall_mem_fields (p := Doc.Over P) hP
        (Attributes.over_fields hP hattributes) (ParameterGroup.over_list hP _)
        fun n hn => Connection.over_fields hP (hconnection n hn)
  | construct c =>
      have hroots : ∀ d ∈ c.components ++ c.errorHandlers, (Doc.named d.fields).Over P :=
        fun d hd => Component.over_fields hP (hbelow d hd)
      obtain ⟨hcomponents, hhandlers⟩ := List.forall_mem_append.1 hroots
      apply Construct.forall_mem_fields (p := Doc.Over P) hP
        (Attributes.over_fields hP hattributes) (ParameterGroup.over_list hP _)
      · rwa [Doc.over_list, List.forall_mem_map]
      · rwa [Doc.over_list, List.forall_mem_map]
  | topLevelParameter p =>
      exact TopLevelParameter.forall_mem_fields (p := Doc.Over P) hP
        (Attributes.over_fields hP hattributes) (Value.over_toDoc hP _)

/-- What holds of texts and in the metadata holds of all scalars. -/
theorem Artifact.over_toDoc {a : Artifact}
    (h : ∀ attributes ∈ a.allAttributes, ∀ e ∈ attributes.metadata.entries, e.2.toDoc.Over P) :
    a.toDoc.Over P := by
  obtain ⟨hattributes, helements⟩ := forall_mem_allAttributes_iff.1 h
  rw [toDoc, Doc.over_named, List.forall_mem_append, List.forall_mem_singleton, Doc.over_list,
    List.forall_mem_map]
  refine ⟨Attributes.over_fields hP hattributes, fun e he => ?_⟩
  exact GlobalElement.over_toDoc hP (helements e he)

end

section
variable {g : Scalar → Scalar} (hg : ∀ t, g (.text t) = .text t)
include hg

theorem Doc.mapScalars_text (t : String) : (text t).mapScalars g = text t := by
  rw [text, mapScalars_scalar, hg]

theorem Attributes.fields_mapLeaf (a : Attributes) :
    (a.mapMetadata (Nest.mapLeaf g)).fields = Doc.mapNamed g a.fields := by
  have hcustom : (a.custom.map Parameter.toDoc).map (Doc.mapScalars g) =
      a.custom.map Parameter.toDoc := by
    rw [List.map_map]
    exact List.map_congr_left fun p _ => Doc.mapScalars_eq_self (p.over_toDoc hg)
  have hmetadata : (Doc.named (a.metadata.map Datum.toDoc).entries).mapScalars g =
      .named ((a.metadata.map (Nest.mapLeaf g)).map Datum.toDoc).entries := by
    rw [Doc.mapScalars_named]
    simp [Doc.mapNamed, Datum.toDoc_mapLeaf, Function.comp_def]
  have hempty : (a.metadata.map (Nest.mapLeaf g)).isEmpty = a.metadata.isEmpty := by
    simp [NameMap.isEmpty]
  have hname : Doc.mapNamed g (("name", .text a.name) ::
      if a.extension = "" then [] else [("declaringExtension", .text a.extension)]) =
        ("name", .text a.name) ::
          if a.extension = "" then [] else [("declaringExtension", .text a.extension)] := by
    split <;> simp [Doc.mapScalars_text hg]
  have hproperties : Doc.mapNamed g (if a.metadata.isEmpty then []
      else [("metadataProperties", .named (a.metadata.map Datum.toDoc).entries)]) =
        if (a.metadata.map (Nest.mapLeaf g)).isEmpty then []
        else [("metadataProperties",
          .named ((a.metadata.map (Nest.mapLeaf g)).map Datum.toDoc).entries)] := by
    rw [← hmetadata]
    cases hnone : a.metadata.isEmpty <;> simp [hempty, hnone, -Doc.mapScalars_named]
  rw [fields, fields, Doc.mapNamed_append, Doc.mapNamed_append, hname, hproperties,
    Doc.mapNamed_listField, hcustom]
  rfl

theorem ParameterGroup.map_toDoc (groups : List ParameterGroup) :
    (groups.map toDoc).map (Doc.mapScalars g) = groups.map toDoc := by
  rw [List.map_map]
  exact List.map_congr_left fun q _ => Doc.mapScalars_eq_self (q.over_toDoc hg)

theorem Connection.fields_mapLeaf (n : Connection) :
    (n.mapMetadata (Nest.mapLeaf g)).fields = Doc.mapNamed g n.fields := by
  simp only [fields, mapMetadata, Doc.mapNamed_append, Doc.mapNamed_listField,
    Attributes.fields_mapLeaf hg, ParameterGroup.map_toDoc hg]

omit hg in
theorem Component.docs_mapLeaf {cs : List Component}
    (h : ∀ c ∈ cs, (c.mapMetadata (Nest.mapLeaf g)).fields = Doc.mapNamed g c.fields) :
    (cs.map fun c => Doc.named c.fields).map (Doc.mapScalars g) =
      (cs.map (mapMetadata (Nest.mapLeaf g))).map fun c => .named c.fields := by
  rw [List.map_map, List.map_map]
  exact List.map_congr_left fun c hc => by simp [h c hc]

theorem Component.fields_mapLeaf (c : Component) :
    (c.mapMetadata (Nest.mapLeaf g)).fields = Doc.mapNamed g c.fields := by
  induction c using induct with
  | step c ih =>
      obtain ⟨hcomponents, hhandlers⟩ := List.forall_mem_append.1 ih
      rw [fields_eq, fields_eq, mapMetadata_eq]
      simp only [ownFields, Doc.mapNamed_cons, Doc.mapNamed_append, Doc.mapNamed_optionalField,
        Doc.mapNamed_listField, Doc.mapScalars_text hg, Attributes.fields_mapLeaf hg,
        ParameterGroup.map_toDoc hg, docs_mapLeaf hcomponents, docs_mapLeaf hhandlers]

theorem GlobalElement.toDoc_mapLeaf (e : GlobalElement) :
    (e.mapMetadata (Nest.mapLeaf g)).toDoc = e.toDoc.mapScalars g := by
  have hfields : (e.mapMetadata (Nest.mapLeaf g)).fields = Doc.mapNamed g e.fields := by
    cases e with
    | configuration c =>
        simp only [mapMetadata, fields, Configuration.fields, Doc.mapNamed_append,
          Doc.mapNamed_optionalField, Doc.mapNamed_listField, Doc.mapScalars_text hg,
          Attributes.fields_mapLeaf hg, ParameterGroup.map_toDoc hg, Doc.mapScalars_named]
        cases c.connection with
        | none => rfl
        | some n => simp only [Option.map_some, optionalField, Connection.fields_mapLeaf hg]
    | construct c =>
        have hdocs (cs : List Component) :=
          Component.docs_mapLeaf fun d (_ : d ∈ cs) => d.fields_mapLeaf hg
        simp only [mapMetadata, fields, Construct.fields_eq, Construct.ownFields,
          Doc.mapNamed_append, Doc.mapNamed_optionalField, Doc.mapNamed_listField,
          Doc.mapScalars_text hg, Attributes.fields_mapLeaf hg, ParameterGroup.map_toDoc hg, hdocs]
    | topLevelParameter p =>
        have hvalue : p.value.toDoc.mapScalars g = p.value.toDoc :=
          Doc.mapScalars_eq_self (Value.over_toDoc hg _)
        simp only [mapMetadata, fields, TopLevelParameter.fields_eq, TopLevelParameter.ownFields,
          Doc.mapNamed_append, Doc.mapNamed_optionalField, Doc.mapNamed_cons, Doc.mapNamed_nil,
          Doc.mapScalars_text hg, Attributes.fields_mapLeaf hg, hvalue]
  have hkind : (e.mapMetadata (Nest.mapLeaf g)).kind = e.kind := by
    cases e <;> rfl
  rw [toDoc, toDoc, hkind, hfields, Doc.mapScalars_named, Doc.mapNamed_cons,
    Doc.mapScalars_text hg]

/-- Texts apart, the scalars of a document are leaves of the metadata. -/
theorem Artifact.toDoc_mapLeaf (a : Artifact) :
    (a.mapMetadata (Nest.mapLeaf g)).toDoc = a.toDoc.mapScalars g := by
  have helements : (a.globalElements.map (·.mapMetadata (Nest.mapLeaf g))).map
      GlobalElement.toDoc = (a.globalElements.map GlobalElement.toDoc).map (Doc.mapScalars g) := by
    rw [List.map_map, List.map_map]
    exact List.map_congr_left fun e _ => e.toDoc_mapLeaf hg
  rw [toDoc, toDoc, Doc.mapScalars_named, Doc.mapNamed_append, Doc.mapNamed_cons,
    Doc.mapScalars_list, ← helements, mapMetadata, Attributes.fields_mapLeaf hg]
  rfl

end

/-! ## Levels of lists and records -/

/-- The levels that the fields of a declaration have beside its connection and components. -/
def fieldNesting : Nat := 2 * maxValueDepth + 3

theorem Parameter.nesting_toDoc_le {p : Parameter} {n : Nat} (h : p.value.depth ≤ n) :
    p.toDoc.nesting ≤ 2 * n + 1 := by
  have hvalue := Value.nesting_toDoc_le h
  rw [toDoc, Doc.nesting_named_le]
  simpa using hvalue

theorem ParameterGroup.nesting_toDoc_le {g : ParameterGroup} (h : g.Shallow) :
    g.toDoc.nesting ≤ 2 * maxValueDepth + 2 := by
  have hparameters : (Doc.named (g.parameters.map Value.toDoc).entries).nesting ≤
      2 * maxValueDepth + 1 := by
    rw [Doc.nesting_named_le, NameMap.entries_map, List.forall_mem_map]
    exact fun e he => Value.nesting_toDoc_le (h e he)
  rw [toDoc, Doc.nesting_named_le]
  simpa using hparameters

theorem ParameterGroup.nesting_list_le {groups : List ParameterGroup}
    (h : ∀ g ∈ groups, g.Shallow) {n : Nat} (hn : fieldNesting ≤ n) :
    (Doc.list (groups.map toDoc)).nesting ≤ n := by
  have hlist : (Doc.list (groups.map toDoc)).nesting ≤ fieldNesting := by
    rw [fieldNesting, Doc.nesting_list_le, List.forall_mem_map]
    exact fun g hg => nesting_toDoc_le (h g hg)
  exact Nat.le_trans hlist hn

theorem Attributes.nesting_fields_le {a : Attributes} (h : a.Shallow) {n : Nat}
    (hn : fieldNesting ≤ n) : ∀ e ∈ a.fields, e.2.nesting ≤ n := by
  have hmetadata : (Doc.named (a.metadata.map Datum.toDoc).entries).nesting ≤
      maxValueDepth + 1 := by
    rw [Doc.nesting_named_le, NameMap.entries_map, List.forall_mem_map]
    exact fun e he => Datum.nesting_toDoc_le (h.metadata e he)
  have hcustom : (Doc.list (a.custom.map Parameter.toDoc)).nesting ≤ 2 * maxValueDepth + 2 := by
    rw [Doc.nesting_list_le, List.forall_mem_map]
    exact fun p hp => Parameter.nesting_toDoc_le (h.custom p hp)
  unfold fieldNesting at hn
  apply forall_mem_fields (p := fun d => d.nesting ≤ n)
  · simp
  · omega
  · omega

theorem Connection.nesting_fields_le {n : Connection} (hattributes : n.attributes.Shallow)
    (hgroups : ∀ g ∈ n.groups, g.Shallow) :
    (Doc.named n.fields).nesting ≤ fieldNesting + 1 := by
  rw [Doc.nesting_named_le]
  exact forall_mem_fields (p := fun d => d.nesting ≤ fieldNesting)
    (Attributes.nesting_fields_le hattributes (Nat.le_refl _))
    (ParameterGroup.nesting_list_le hgroups (Nat.le_refl _))

/-- Each level of components has a list and a record, and the last one its record only. -/
theorem Component.nesting_fields_le {c : Component} {n : Nat} (hdepth : c.nestingDepth ≤ n + 1)
    (h : ∀ d ∈ c.subtree, d.Local) : (Doc.named c.fields).nesting ≤ fieldNesting + 2 * n + 1 := by
  induction c using induct generalizing n with
  | step c ih =>
      obtain ⟨hlocal, hbelow⟩ := forall_mem_subtree_iff.1 h
      have hdepths := nestingDepth_le_succ_iff.1 hdepth
      have hchild : ∀ child ∈ c.children,
          (Doc.named child.fields).nesting < fieldNesting + 2 * n := by
        intro child hchild
        have hpos := child.nestingDepth_pos
        have hle := hdepths child hchild
        obtain ⟨m, rfl⟩ : ∃ m, n = m + 1 := ⟨n - 1, by omega⟩
        have hfields := ih child hchild hle (hbelow child hchild)
        omega
      obtain ⟨hcomponents, hhandlers⟩ := List.forall_mem_append.1 hchild
      obtain ⟨m, hm⟩ : ∃ m, fieldNesting + 2 * n = m + 1 :=
        ⟨2 * maxValueDepth + 2 + 2 * n, by unfold fieldNesting; omega⟩
      have hlist {l : List Component}
          (h : ∀ d ∈ l, (Doc.named d.fields).nesting < fieldNesting + 2 * n) :
          (Doc.list (l.map fun d => .named d.fields)).nesting ≤ fieldNesting + 2 * n := by
        rw [hm, Doc.nesting_list_le, List.forall_mem_map]
        intro d hd
        have hlt := h d hd
        omega
      rw [Doc.nesting_named_le]
      have hroom : fieldNesting ≤ fieldNesting + 2 * n := Nat.le_add_right _ _
      apply forall_mem_fields (p := fun d => d.nesting ≤ fieldNesting + 2 * n)
      · simp
      · exact Attributes.nesting_fields_le hlocal.attributes hroom
      · exact ParameterGroup.nesting_list_le hlocal.groups hroom
      · exact hlist hcomponents
      · exact hlist hhandlers

def elementNesting : Nat := fieldNesting + 2 * maxComponentDepth + 1

theorem GlobalElement.nesting_toDoc_le {e : GlobalElement} (h : e.Legal) :
    e.toDoc.nesting ≤ elementNesting := by
  obtain ⟨-, hattributes, hgroups, hconnection, hroots, hvalue⟩ := legal_iff.1 h
  have hroom : fieldNesting ≤ fieldNesting + 2 * maxComponentDepth := Nat.le_add_right _ _
  have hown := Attributes.nesting_fields_le hattributes hroom
  have hlists := ParameterGroup.nesting_list_le hgroups hroom
  rw [elementNesting, toDoc, Doc.nesting_named_le, List.forall_mem_cons]
  refine ⟨Nat.zero_le _, ?_⟩
  cases e with
  | configuration c =>
      apply Configuration.forall_mem_fields
        (p := fun d => d.nesting ≤ fieldNesting + 2 * maxComponentDepth) (by simp) hown hlists
      intro n hn
      obtain ⟨hn, hgroups⟩ := hconnection n hn
      have hfields := Connection.nesting_fields_le hn hgroups
      unfold maxComponentDepth
      omega
  | construct c =>
      have hfields : ∀ d ∈ c.components ++ c.errorHandlers,
          (Doc.named d.fields).nesting ≤ fieldNesting + 2 * (maxComponentDepth - 1) + 1 :=
        fun d hd => Component.nesting_fields_le (hroots d hd).1 (hroots d hd).2
      obtain ⟨hcomponents, hhandlers⟩ := List.forall_mem_append.1 hfields
      have hlevels : fieldNesting + 2 * maxComponentDepth =
          fieldNesting + 2 * (maxComponentDepth - 1) + 1 + 1 := rfl
      rw [hlevels] at hown hlists ⊢
      apply Construct.forall_mem_fields
        (p := fun d => d.nesting ≤ fieldNesting + 2 * (maxComponentDepth - 1) + 1 + 1)
        (by simp) hown hlists
      · rwa [Doc.nesting_list_le, List.forall_mem_map]
      · rwa [Doc.nesting_list_le, List.forall_mem_map]
  | topLevelParameter p =>
      apply TopLevelParameter.forall_mem_fields
        (p := fun d => d.nesting ≤ fieldNesting + 2 * maxComponentDepth) (by simp) hown
      have hdoc : p.value.toDoc.nesting ≤ 2 * maxValueDepth := Value.nesting_toDoc_le (hvalue p rfl)
      unfold fieldNesting
      omega

/-- A legal artifact has a list and a record around its elements. -/
theorem Artifact.nesting_toDoc_le {a : Artifact} (h : a.Legal) :
    a.toDoc.nesting ≤ elementNesting + 2 := by
  rw [toDoc, Doc.nesting_named_le, List.forall_mem_append, List.forall_mem_singleton,
    Doc.nesting_list_le, List.forall_mem_map]
  refine ⟨Attributes.nesting_fields_le h.attributes ?_, fun e he =>
    GlobalElement.nesting_toDoc_le (h.elements e he)⟩
  unfold elementNesting
  omega

end FlowArtifact
