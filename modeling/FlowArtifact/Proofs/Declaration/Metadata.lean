import FlowArtifact.Proofs.Declaration.Validity
import FlowArtifact.Proofs.Nest

/-!
# Replacing metadata

A text format may change the doubles in metadata, and nothing else.  What it does
to an artifact is therefore a change of every metadata value by one function.  A
function that keeps the depths of values changes no outcome of a check, and one
that keeps all the values at hand changes nothing at all.
-/

namespace FlowArtifact

section
variable (f : Datum → Datum)

def Attributes.mapMetadata (a : Attributes) : Attributes := { a with metadata := a.metadata.map f }

namespace Component

mutual
def mapMetadata : Component → Component
  | ⟨kind, attributes, configRef, groups, components, errorHandlers⟩ =>
    ⟨kind, attributes.mapMetadata f, configRef, groups, mapMetadatas components,
      mapMetadatas errorHandlers⟩

def mapMetadatas : List Component → List Component
  | [] => []
  | c :: rest => c.mapMetadata :: mapMetadatas rest
end

theorem mapMetadatas_eq_map (cs : List Component) : mapMetadatas f cs = cs.map (mapMetadata f) := by
  induction cs with
  | nil => rfl
  | cons c rest ih => rw [mapMetadatas, ih, List.map_cons]

theorem mapMetadata_eq (c : Component) : c.mapMetadata f =
    { c with
      attributes := c.attributes.mapMetadata f
      components := c.components.map (mapMetadata f)
      errorHandlers := c.errorHandlers.map (mapMetadata f) } := by
  cases c
  rw [mapMetadata, mapMetadatas_eq_map, mapMetadatas_eq_map]

end Component

def Connection.mapMetadata (n : Connection) : Connection :=
  { n with attributes := n.attributes.mapMetadata f }

def GlobalElement.mapMetadata : GlobalElement → GlobalElement
  | configuration c => configuration { c with
      attributes := c.attributes.mapMetadata f
      connection := c.connection.map (·.mapMetadata f) }
  | construct c => construct { c with
      attributes := c.attributes.mapMetadata f
      components := c.components.map (·.mapMetadata f)
      errorHandlers := c.errorHandlers.map (·.mapMetadata f) }
  | topLevelParameter p => topLevelParameter { p with attributes := p.attributes.mapMetadata f }

def Artifact.mapMetadata (a : Artifact) : Artifact where
  attributes := a.attributes.mapMetadata f
  globalElements := a.globalElements.map (·.mapMetadata f)

end

/-! ## Values that stay the same -/

section
variable {f : Datum → Datum}

theorem Attributes.mapMetadata_eq_self {a : Attributes}
    (h : ∀ e ∈ a.metadata.entries, f e.2 = e.2) : a.mapMetadata f = a := by
  unfold mapMetadata
  rw [NameMap.map_eq_self h]

theorem Component.mapMetadata_eq_self {c : Component}
    (h : ∀ d ∈ c.subtree, d.attributes.mapMetadata f = d.attributes) : c.mapMetadata f = c := by
  induction c using induct with
  | step c ih =>
      obtain ⟨hattributes, hchildren⟩ := forall_mem_subtree_iff.1 h
      have hmap : ∀ child ∈ c.children, child.mapMetadata f = child :=
        fun child hchild => ih child hchild (hchildren child hchild)
      obtain ⟨hcomponents, hhandlers⟩ := List.forall_mem_append.1 hmap
      rw [mapMetadata_eq, hattributes, List.map_congr_left hcomponents,
        List.map_congr_left hhandlers, List.map_id', List.map_id']
      cases c
      rfl

theorem GlobalElement.mapMetadata_eq_self {e : GlobalElement}
    (h : ∀ a ∈ e.allAttributes, a.mapMetadata f = a) : e.mapMetadata f = e := by
  obtain ⟨hattributes, hconnection, hbelow⟩ := forall_mem_allAttributes_iff.1 h
  cases e with
  | configuration c =>
      have hmap : c.connection.map (·.mapMetadata f) = c.connection := by
        cases hn : c.connection with
        | none => rfl
        | some n =>
            have hself : n.mapMetadata f = n := by
              unfold Connection.mapMetadata
              rw [hconnection n hn]
            rw [Option.map_some, hself]
      simp only [attributes] at hattributes
      rw [mapMetadata, hattributes, hmap]
  | construct c =>
      have hmap : ∀ d ∈ c.components ++ c.errorHandlers, d.mapMetadata f = d :=
        fun d hd => Component.mapMetadata_eq_self (hbelow d hd)
      obtain ⟨hcomponents, hhandlers⟩ := List.forall_mem_append.1 hmap
      simp only [attributes] at hattributes
      rw [mapMetadata, hattributes, List.map_congr_left hcomponents,
        List.map_congr_left hhandlers, List.map_id', List.map_id']
  | topLevelParameter p =>
      simp only [attributes] at hattributes
      rw [mapMetadata, hattributes]

theorem Artifact.mapMetadata_eq_self {a : Artifact}
    (h : ∀ attributes ∈ a.allAttributes, ∀ e ∈ attributes.metadata.entries, f e.2 = e.2) :
    a.mapMetadata f = a := by
  obtain ⟨hattributes, helements⟩ := forall_mem_allAttributes_iff.1 h
  have hmap : ∀ e ∈ a.globalElements, e.mapMetadata f = e := by
    intro e he
    apply GlobalElement.mapMetadata_eq_self
    intro attributes hmem
    exact Attributes.mapMetadata_eq_self (helements e he attributes hmem)
  unfold mapMetadata
  rw [Attributes.mapMetadata_eq_self hattributes, List.map_congr_left hmap, List.map_id']

end

/-! ## Values that keep their depths -/

theorem checkAll_map {α β : Type} (check : β → Except Error Unit) (g : α → β) (l : List α) :
    checkAll check (l.map g) = checkAll (fun a => check (g a)) l := by
  induction l with
  | nil => rfl
  | cons a rest ih => rw [List.map_cons, checkAll, ih, checkAll]

theorem checkAll_congr {α : Type} {check check' : α → Except Error Unit} {l : List α}
    (h : ∀ a ∈ l, check a = check' a) : checkAll check l = checkAll check' l := by
  induction l with
  | nil => rfl
  | cons a rest ih =>
      obtain ⟨ha, hrest⟩ := List.forall_mem_cons.1 h
      rw [checkAll, ha, ih hrest, checkAll]

section
variable {f : Datum → Datum} (hf : ∀ v, (f v).depth = v.depth)
include hf

theorem Attributes.check_mapMetadata (a : Attributes) : (a.mapMetadata f).check = a.check := by
  simp only [check, mapMetadata, NameMap.entries_map, checkAll_map, hf]

namespace Component

omit hf in
theorem nestingDepth_mapMetadata (c : Component) :
    (c.mapMetadata f).nestingDepth = c.nestingDepth := by
  -- Depths are compared through their bounds, which speak of children only.
  have hle (n : Nat) : ∀ d : Component,
      (d.mapMetadata f).nestingDepth ≤ n ↔ d.nestingDepth ≤ n := by
    induction n with
    | zero =>
        intro d
        have hpos := d.nestingDepth_pos
        have hpos' := (d.mapMetadata f).nestingDepth_pos
        omega
    | succ n ih =>
        intro d
        rw [nestingDepth_le_succ_iff, nestingDepth_le_succ_iff, mapMetadata_eq]
        simp only [children, ← List.map_append, List.forall_mem_map, ih]
  exact Nat.le_antisymm ((hle _ c).2 (Nat.le_refl _)) ((hle _ c).1 (Nat.le_refl _))

omit hf in
theorem checkChild_mapMetadata (c child : Component) :
    (c.mapMetadata f).checkChild (child.mapMetadata f) = c.checkChild child := by
  have hdepth := nestingDepth_mapMetadata (f := f) child
  unfold checkChild
  rw [hdepth, mapMetadata_eq, mapMetadata_eq]
  rfl

theorem check_mapMetadata (c : Component) : (c.mapMetadata f).check = c.check := by
  induction c using induct with
  | step c ih =>
      obtain ⟨hcomponents, hhandlers⟩ := List.forall_mem_append.1 ih
      have hchildren {l : List Component} (h : ∀ d ∈ l, (d.mapMetadata f).check = d.check) :
          checkAll (c.mapMetadata f).checkUnder (l.map (mapMetadata f)) =
            checkAll c.checkUnder l := by
        rw [checkAll_map]
        exact checkAll_congr fun d hd => by
          rw [checkUnder, checkChild_mapMetadata, h d hd, checkUnder]
      rw [check_eq c, ← hchildren hcomponents, ← hchildren hhandlers,
        ← Attributes.check_mapMetadata hf, check_eq, mapMetadata_eq]
      rfl

theorem checkIn_mapMetadata (construct : String) (c : Component) :
    (c.mapMetadata f).checkIn construct = c.checkIn construct := by
  unfold checkIn
  rw [nestingDepth_mapMetadata, check_mapMetadata hf]

end Component

theorem GlobalElement.check_mapMetadata (e : GlobalElement) :
    (e.mapMetadata f).check = e.check := by
  have hcontent : (e.mapMetadata f).checkContent = e.checkContent := by
    cases e with
    | configuration c =>
        simp only [mapMetadata, checkContent]
        cases c.connection with
        | none => rfl
        | some n =>
            simp only [Option.map_some, Connection.mapMetadata, Attributes.check_mapMetadata hf]
            rfl
    | construct c =>
        simp only [mapMetadata, checkContent, ← List.map_append, checkAll_map,
          Component.checkIn_mapMetadata hf]
        rfl
    | topLevelParameter p => rfl
  have hattributes : (e.mapMetadata f).attributes.check = e.attributes.check := by
    cases e <;> exact Attributes.check_mapMetadata hf _
  have hname : (e.mapMetadata f).refName = e.refName := by
    cases e <;> rfl
  unfold check
  rw [hcontent, hattributes, hname]

theorem Artifact.checkElements_mapMetadata (seen : List String) (es : List GlobalElement) :
    checkElements seen (es.map (·.mapMetadata f)) = checkElements seen es := by
  induction es generalizing seen with
  | nil => rfl
  | cons e rest ih =>
      have hname : (e.mapMetadata f).refName = e.refName := by
        cases e <;> rfl
      simp only [List.map_cons, checkElements, hname, GlobalElement.check_mapMetadata hf, ih]

/-- The checks do not look into metadata values but for their depths. -/
theorem Artifact.validate_mapMetadata (a : Artifact) :
    (a.mapMetadata f).validate = a.validate := by
  unfold validate
  rw [← Attributes.check_mapMetadata hf a.attributes,
    ← checkElements_mapMetadata hf [] a.globalElements]
  rfl

end

end FlowArtifact
