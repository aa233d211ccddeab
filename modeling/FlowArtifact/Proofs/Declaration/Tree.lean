import FlowArtifact.Declaration
import Mathlib.Data.List.Chain

/-!
# Trees of components

Components own components in two lists, the components and the error handlers.
This module walks such a tree: `subtree` and `forest` list everything in it, a
`Line` goes down in it from child to child, and the nesting depth is the length
of the longest line.
-/

namespace FlowArtifact

namespace Component

def children (c : Component) : List Component := c.components ++ c.errorHandlers

mutual
def subtree : Component → List Component
  | ⟨kind, attributes, configRef, groups, components, errorHandlers⟩ =>
    ⟨kind, attributes, configRef, groups, components, errorHandlers⟩ ::
      (forest components ++ forest errorHandlers)

def forest : List Component → List Component
  | [] => []
  | c :: rest => c.subtree ++ forest rest
end

theorem sizeOf_child_lt {c child : Component} (h : child ∈ c.children) :
    sizeOf child < sizeOf c := by
  cases c
  simp only [Component.mk.sizeOf_spec]
  rcases List.mem_append.1 h with h | h
  · have hsize := List.sizeOf_lt_of_mem h
    simp only at hsize
    omega
  · have hsize := List.sizeOf_lt_of_mem h
    simp only at hsize
    omega

theorem induct {motive : Component → Prop}
    (step : ∀ c : Component, (∀ child ∈ c.children, motive child) → motive c) (c : Component) :
    motive c := by
  apply step c
  intro child hchild
  exact induct step child
termination_by sizeOf c
decreasing_by exact sizeOf_child_lt hchild

/-! ## Everything in a tree -/

theorem mem_forest_iff {cs : List Component} {d : Component} :
    d ∈ forest cs ↔ ∃ c ∈ cs, d ∈ c.subtree := by
  induction cs with
  | nil => simp [forest]
  | cons c rest ih => simp [forest, ih]

theorem mem_subtree_iff {c d : Component} : d ∈ c.subtree ↔ d = c ∨ d ∈ forest c.children := by
  cases c
  simp only [subtree, children, List.mem_cons, List.mem_append, mem_forest_iff]
  apply or_congr_right
  constructor
  · rintro (⟨c, hc, hd⟩ | ⟨c, hc, hd⟩)
    · exact ⟨c, .inl hc, hd⟩
    · exact ⟨c, .inr hc, hd⟩
  · rintro ⟨c, hc | hc, hd⟩
    · exact .inl ⟨c, hc, hd⟩
    · exact .inr ⟨c, hc, hd⟩

/-- What holds of a component and of everything below its children holds in its whole tree. -/
theorem forall_mem_subtree_iff {p : Component → Prop} {c : Component} :
    (∀ d ∈ c.subtree, p d) ↔ p c ∧ ∀ child ∈ c.children, ∀ d ∈ child.subtree, p d := by
  constructor
  · intro h
    refine ⟨h c (mem_subtree_iff.2 (.inl rfl)), fun child hchild d hd => ?_⟩
    exact h d (mem_subtree_iff.2 (.inr (mem_forest_iff.2 ⟨child, hchild, hd⟩)))
  · rintro ⟨hc, hchildren⟩ d hd
    rcases mem_subtree_iff.1 hd with rfl | hbelow
    · exact hc
    · obtain ⟨child, hchild, hd⟩ := mem_forest_iff.1 hbelow
      exact hchildren child hchild d hd

theorem forall_mem_forest_iff {p : Component → Prop} {cs : List Component} :
    (∀ d ∈ forest cs, p d) ↔ ∀ c ∈ cs, ∀ d ∈ c.subtree, p d := by
  simp only [mem_forest_iff]
  constructor
  · exact fun h c hc d hd => h d ⟨c, hc, hd⟩
  · rintro h d ⟨c, hc, hd⟩
    exact h c hc d hd

/-! ## Nesting depth -/

theorem nestingDepths_le_iff {cs : List Component} {n : Nat} :
    nestingDepths cs ≤ n ↔ ∀ c ∈ cs, c.nestingDepth ≤ n := by
  induction cs with
  | nil => simp [nestingDepths]
  | cons c rest ih => rw [nestingDepths, Nat.max_le, ih, List.forall_mem_cons]

theorem nestingDepth_le_succ_iff {c : Component} {n : Nat} :
    c.nestingDepth ≤ n + 1 ↔ ∀ child ∈ c.children, child.nestingDepth ≤ n := by
  cases c
  rw [nestingDepth, Nat.add_comm 1, Nat.add_le_add_iff_right, Nat.max_le, nestingDepths_le_iff,
    nestingDepths_le_iff, children, List.forall_mem_append]

theorem nestingDepth_pos (c : Component) : 0 < c.nestingDepth := by
  cases c
  rw [nestingDepth]
  omega

theorem nestingDepth_child_lt {c child : Component} (h : child ∈ c.children) :
    child.nestingDepth < c.nestingDepth := by
  obtain ⟨n, hn⟩ : ∃ n, c.nestingDepth = n + 1 :=
    ⟨c.nestingDepth - 1, by have hpos := c.nestingDepth_pos; omega⟩
  have hle := nestingDepth_le_succ_iff.1 (Nat.le_of_eq hn) child h
  omega

/-- A way down, from child to child, that begins with one of the components. -/
def Line (cs : List Component) (line : List Component) : Prop :=
  (∀ c ∈ line.head?, c ∈ cs) ∧ line.IsChain fun c child => child ∈ c.children

theorem line_cons_iff {cs line : List Component} {c : Component} :
    Line cs (c :: line) ↔ c ∈ cs ∧ Line c.children line := by
  cases line with
  | nil => simp [Line]
  | cons d line => simp [Line, List.isChain_cons_cons]

/-- Nesting depths are bounded as the lengths of all lines are. -/
theorem nestingDepth_le_iff_line {cs : List Component} {n : Nat} :
    (∀ c ∈ cs, c.nestingDepth ≤ n) ↔ ∀ line, Line cs line → line.length ≤ n := by
  constructor
  · intro h line hline
    induction line generalizing cs n with
    | nil => exact Nat.zero_le n
    | cons c line ih =>
        obtain ⟨hc, hrest⟩ := line_cons_iff.1 hline
        have hdepth := h c hc
        obtain ⟨m, rfl⟩ : ∃ m, n = m + 1 :=
          ⟨n - 1, by have hpos := c.nestingDepth_pos; omega⟩
        have hlength := ih (nestingDepth_le_succ_iff.1 hdepth) hrest
        simpa using hlength
  · intro h c hc
    induction c using induct generalizing cs n with
    | step c ih =>
        have hone : Line cs [c] := line_cons_iff.2 ⟨hc, by simp [Line]⟩
        obtain ⟨m, rfl⟩ : ∃ m, n = m + 1 :=
          ⟨n - 1, by have hlength := h [c] hone; simp at hlength; omega⟩
        rw [nestingDepth_le_succ_iff]
        intro child hchild
        apply ih child hchild _ hchild
        intro line hline
        have hlength := h (c :: line) (line_cons_iff.2 ⟨hc, hline⟩)
        simpa using hlength

end Component

namespace GlobalElement

def roots : GlobalElement → List Component
  | construct c => c.components ++ c.errorHandlers
  | configuration _ | topLevelParameter _ => []

def nested (e : GlobalElement) : List Component := Component.forest e.roots

def connection? : GlobalElement → Option Connection
  | configuration c => c.connection
  | construct _ | topLevelParameter _ => none

def groups : GlobalElement → List ParameterGroup
  | configuration c => c.groups
  | construct c => c.groups
  | topLevelParameter _ => []

def allAttributes (e : GlobalElement) : List Attributes :=
  e.attributes :: (e.connection?.toList.map (·.attributes) ++ e.nested.map (·.attributes))

def allGroups (e : GlobalElement) : List ParameterGroup :=
  e.groups ++ (e.connection?.toList.flatMap (·.groups) ++ e.nested.flatMap (·.groups))

theorem forall_mem_nested_iff {e : GlobalElement} {p : Component → Prop} :
    (∀ d ∈ e.nested, p d) ↔ ∀ c ∈ e.roots, ∀ d ∈ c.subtree, p d :=
  Component.forall_mem_forest_iff

theorem forall_mem_allAttributes_iff {e : GlobalElement} {p : Attributes → Prop} :
    (∀ a ∈ e.allAttributes, p a) ↔ p e.attributes ∧ (∀ n ∈ e.connection?, p n.attributes) ∧
      ∀ c ∈ e.roots, ∀ d ∈ c.subtree, p d.attributes := by
  unfold allAttributes
  rw [List.forall_mem_cons, List.forall_mem_append, List.forall_mem_map, List.forall_mem_map,
    forall_mem_nested_iff]
  simp only [Option.mem_toList, Option.mem_def]

theorem forall_mem_allGroups_iff {e : GlobalElement} {p : ParameterGroup → Prop} :
    (∀ g ∈ e.allGroups, p g) ↔ (∀ g ∈ e.groups, p g) ∧
      (∀ n ∈ e.connection?, ∀ g ∈ n.groups, p g) ∧
      ∀ c ∈ e.roots, ∀ d ∈ c.subtree, ∀ g ∈ d.groups, p g := by
  unfold allGroups
  rw [List.forall_mem_append, List.forall_mem_append, List.forall_mem_flatMap,
    List.forall_mem_flatMap, forall_mem_nested_iff]
  simp only [Option.mem_toList, Option.mem_def]

end GlobalElement

namespace Artifact

def allAttributes (a : Artifact) : List Attributes :=
  a.attributes :: a.globalElements.flatMap GlobalElement.allAttributes

theorem forall_mem_allAttributes_iff {a : Artifact} {p : Attributes → Prop} :
    (∀ attributes ∈ a.allAttributes, p attributes) ↔
      p a.attributes ∧ ∀ e ∈ a.globalElements, ∀ attributes ∈ e.allAttributes, p attributes := by
  unfold allAttributes
  rw [List.forall_mem_cons, List.forall_mem_flatMap]

end Artifact

end FlowArtifact
