import FlowArtifact.Declaration.Node
import Mathlib.Data.List.Basic

/-!
# Positions in an artifact

The moves of a trail lead from an artifact to a declaration, and two nodes with
the same trail in one artifact are the same node.  Every step is a move to what
the declaration owns, so the resolver comes to nodes that stand in the artifact
where their trails say.
-/

namespace FlowArtifact

namespace Declaration

def move? (d : Declaration) : Move → Option Declaration
  | .element _ => none
  | .connection =>
    match d with
    | configuration c => c.connection.map connection
    | _ => none
  | .component i => do pure (component (← (← d.children?).1[i]?))
  | .errorHandler i => do pure (component (← (← d.children?).2[i]?))
  | .group i => do pure (group (← (← d.groups?)[i]?))
  | .parameter i name => do
    pure (parameter name (← (← (← d.groups?)[i]?).parameters.get? name))
  | .field name =>
    match d.groups? with
    | some _ => none
    | none => do pure (parameter name (← (← d.parameters?).get? name))

end Declaration

namespace Artifact

def declarationAt? (a : Artifact) : List Move → Option Declaration
  | [] => none
  | [.element i] => a.globalElements[i]?.map .ofElement
  | m :: rest => (a.declarationAt? rest).bind (·.move? m)

theorem exists_steps_of_find? {a : Artifact} {l : Location} {n : Node} (h : a.find? l = some n) :
    ∃ start steps, a.element? l.globalName = some start ∧
      Step.ofSegments? l.segments = some steps ∧ steps.foldlM Node.step? start = some n := by
  simp only [find?, Option.bind_eq_bind, Option.bind_eq_some_iff] at h
  obtain ⟨start, hstart, steps, hsteps, hfold⟩ := h
  exact ⟨start, steps, hstart, hsteps, hfold⟩

end Artifact

namespace Node

def In (n : Node) (a : Artifact) : Prop := a.declarationAt? n.trail = some n.declaration

variable {a : Artifact} {n m : Node}

theorem in_ofElement {i : Nat} {e : GlobalElement} (h : a.globalElements[i]? = some e) :
    (ofElement i e).In a := by
  simp [In, ofElement, Artifact.declarationAt?, h]

theorem in_move {next : Move} {d : Declaration} (hn : n.In a)
    (h : n.declaration.move? next = some d) : (n.move next d).In a := by
  obtain ⟨trail, declaration⟩ := n
  unfold In at hn ⊢
  cases trail with
  | nil => cases hn
  | cons last rest =>
      rw [move, Artifact.declarationAt?, hn, Option.bind_some, h]
      simp

theorem inGroups?_eq_some {groups : List ParameterGroup} {name : String}
    (hgroups : n.declaration.groups? = some groups) (h : n.inGroups? groups name = some m) :
    ∃ next d, n.declaration.move? next = some d ∧ m = n.move next d := by
  unfold inGroups? at h
  split at h
  next g i hfind =>
    cases h
    have hg := List.mem_zipIdx_iff_getElem?.1 (List.mem_of_find?_eq_some hfind)
    exact ⟨_, _, by simp [Declaration.move?, hgroups, hg], rfl⟩
  next =>
    obtain ⟨⟨g, i⟩, hmem, h⟩ := List.exists_of_findSome?_eq_some h
    obtain ⟨v, hv, rfl⟩ := Option.map_eq_some_iff.1 h
    have hg := List.mem_zipIdx_iff_getElem?.1 hmem
    exact ⟨_, _, by simp [Declaration.move?, hgroups, hg, hv], rfl⟩

theorem connection?_eq_some (h : n.connection? = some m) :
    ∃ c d, n.declaration = .configuration c ∧ c.connection = some d ∧
      m = n.move .connection (.connection d) := by
  unfold connection? at h
  split at h
  next c hc =>
    obtain ⟨d, hd, rfl⟩ := Option.map_eq_some_iff.1 h
    exact ⟨c, d, hc, hd, rfl⟩
  next => cases h

theorem source?_eq_some (h : n.source? = some m) :
    ∃ children i c, n.declaration.children? = some children ∧ children.1[i]? = some c ∧
      m = n.move (.component i) (.component c) := by
  simp only [source?, components?, Option.bind_eq_bind, Option.bind_eq_some_iff,
    Option.map_eq_some_iff, Option.pure_def, Option.some.injEq] at h
  obtain ⟨_, ⟨children, hchildren, rfl⟩, ⟨c, i⟩, hfind, rfl⟩ := h
  exact ⟨children, i, c, hchildren,
    List.mem_zipIdx_iff_getElem?.1 (List.mem_of_find?_eq_some hfind), rfl⟩

theorem processor?_eq_some {i : Nat} (h : n.processor? i = some m) :
    ∃ children j c, n.declaration.children? = some children ∧ children.1[j]? = some c ∧
      m = n.move (.component j) (.component c) := by
  simp only [processor?, components?, Option.bind_eq_bind, Option.bind_eq_some_iff,
    Option.map_eq_some_iff, Option.pure_def, Option.some.injEq] at h
  obtain ⟨_, ⟨children, hchildren, rfl⟩, ⟨c, j⟩, hget, rfl⟩ := h
  have hmem := (List.mem_filter.1 (List.mem_of_getElem? hget)).1
  exact ⟨children, j, c, hchildren, List.mem_zipIdx_iff_getElem?.1 hmem, rfl⟩

theorem errorHandler?_eq_some {i : Nat} (h : n.errorHandler? i = some m) :
    ∃ children c, n.declaration.children? = some children ∧ children.2[i]? = some c ∧
      m = n.move (.errorHandler i) (.component c) := by
  simp only [errorHandler?, Option.bind_eq_bind, Option.bind_eq_some_iff, Option.pure_def,
    Option.some.injEq] at h
  obtain ⟨children, hchildren, c, hc, rfl⟩ := h
  exact ⟨children, c, hchildren, hc, rfl⟩

theorem step?_eq_some {s : Step} (h : n.step? s = some m) :
    ∃ next d, n.declaration.move? next = some d ∧ m = n.move next d := by
  cases s with
  | connection =>
      obtain ⟨c, d, hc, hd, rfl⟩ := connection?_eq_some h
      exact ⟨.connection, _, by simp [Declaration.move?, hc, hd], rfl⟩
  | source =>
      obtain ⟨children, i, c, hchildren, hc, rfl⟩ := source?_eq_some h
      exact ⟨.component i, _, by simp [Declaration.move?, hchildren, hc], rfl⟩
  | processor i =>
      obtain ⟨children, j, c, hchildren, hc, rfl⟩ := processor?_eq_some h
      exact ⟨.component j, _, by simp [Declaration.move?, hchildren, hc], rfl⟩
  | errorHandler i =>
      obtain ⟨children, c, hchildren, hc, rfl⟩ := errorHandler?_eq_some h
      exact ⟨.errorHandler i, _, by simp [Declaration.move?, hchildren, hc], rfl⟩
  | name text =>
      simp only [step?, named?] at h
      split at h
      next groups hgroups => exact inGroups?_eq_some hgroups h
      next hgroups =>
        simp only [Option.bind_eq_bind, Option.bind_eq_some_iff, Option.pure_def,
          Option.some.injEq] at h
        obtain ⟨parameters, hparameters, v, hv, rfl⟩ := h
        exact ⟨.field text, _, by simp [Declaration.move?, hgroups, hparameters, hv], rfl⟩

theorem in_step {s : Step} (hn : n.In a) (h : n.step? s = some m) : m.In a := by
  obtain ⟨next, d, hnext, rfl⟩ := step?_eq_some h
  exact in_move hn hnext

theorem foldlM_cons_eq_some_iff {s : Step} {rest : List Step} :
    (s :: rest).foldlM step? n = some m ↔
      ∃ next, n.step? s = some next ∧ rest.foldlM step? next = some m := by
  rw [List.foldlM_cons, Option.bind_eq_bind, Option.bind_eq_some_iff]

theorem in_steps {steps : List Step} (hn : n.In a) (h : steps.foldlM step? n = some m) :
    m.In a := by
  induction steps generalizing n with
  | nil =>
      cases h
      exact hn
  | cons s rest ih =>
      obtain ⟨next, hstep, hrest⟩ := foldlM_cons_eq_some_iff.1 h
      exact ih (in_step hn hstep) hrest

theorem in_element {name : String} (h : a.element? name = some n) : n.In a := by
  simp only [Artifact.element?, Option.bind_eq_bind, Option.bind_eq_some_iff, Option.pure_def,
    Option.some.injEq] at h
  obtain ⟨⟨e, i⟩, hfind, rfl⟩ := h
  exact in_ofElement (List.mem_zipIdx_iff_getElem?.1 (List.mem_of_find?_eq_some hfind))

/-- The resolver comes to a node of the artifact. -/
theorem in_find {l : Location} (h : a.find? l = some n) : n.In a := by
  obtain ⟨start, steps, hstart, -, hfold⟩ := Artifact.exists_steps_of_find? h
  exact in_steps (in_element hstart) hfold

end Node

end FlowArtifact
