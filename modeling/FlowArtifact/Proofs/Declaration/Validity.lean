import FlowArtifact.Declaration.Validity
import FlowArtifact.Proofs.Declaration.Tree
import FlowArtifact.Proofs.Location.Names

/-!
# Legal artifacts

`Legal` says which artifacts keep the rules of ownership and nesting, in terms
of everything that an artifact holds and without the checks.  The checks accept
exactly the legal artifacts.  At the construct the depth of its trees is compared
with the limit once; a comparison at a child can then no longer fail, so below
the construct only routes, attributes and groups are left to look at.
-/

namespace FlowArtifact

structure Attributes.Shallow (a : Attributes) : Prop where
  metadata : ∀ e ∈ a.metadata.entries, e.2.depth ≤ maxValueDepth
  custom : ∀ p ∈ a.custom, p.value.depth ≤ maxValueDepth

def ParameterGroup.Shallow (g : ParameterGroup) : Prop :=
  ∀ e ∈ g.parameters.entries, e.2.depth ≤ maxValueDepth

/-- The rules for an element and everything it owns. -/
structure GlobalElement.Legal (e : GlobalElement) : Prop where
  name : ∀ name, e.refName = some name → Location.IsGlobalName name
  lines : ∀ line, Component.Line e.roots line → line.length ≤ maxComponentDepth
  routes : ∀ c ∈ e.nested, c.kind = .route → ∀ child ∈ c.children, child.kind ≠ .route
  attributes : ∀ a ∈ e.allAttributes, a.Shallow
  groups : ∀ g ∈ e.allGroups, g.Shallow
  value : ∀ p, e = .topLevelParameter p → p.value.depth ≤ maxValueDepth

/-- The rules for an artifact and everything it owns. -/
structure Artifact.Legal (a : Artifact) : Prop where
  attributes : a.attributes.Shallow
  elements : ∀ e ∈ a.globalElements, e.Legal
  names : (a.globalElements.filterMap (·.refName)).Nodup

/-! ## Attributes and groups -/

theorem checkDepth_eq_ok_iff {element what : String} {depth : Nat} :
    checkDepth element what depth = .ok () ↔ depth ≤ maxValueDepth := by
  unfold checkDepth
  by_cases h : maxValueDepth < depth
  · simp [h]
  · simp [h, Nat.le_of_not_lt h]

theorem checkAll_eq_ok_iff {α : Type} {check : α → Except Error Unit} {l : List α} :
    checkAll check l = .ok () ↔ ∀ a ∈ l, check a = .ok () := by
  induction l with
  | nil => simp [checkAll]
  | cons a rest ih => simp [checkAll, check_bind_eq_ok_iff, ih]

theorem Attributes.check_eq_ok_iff {a : Attributes} : a.check = .ok () ↔ a.Shallow := by
  simp only [check, check_bind_eq_ok_iff, checkAll_eq_ok_iff, checkDepth_eq_ok_iff]
  exact ⟨fun h => ⟨h.1, h.2⟩, fun h => ⟨h.1, h.2⟩⟩

theorem ParameterGroup.checkGroups_eq_ok_iff {element : String} {groups : List ParameterGroup} :
    checkGroups element groups = .ok () ↔ ∀ g ∈ groups, g.Shallow := by
  simp only [checkGroups, checkAll_eq_ok_iff, checkDepth_eq_ok_iff, Shallow]

/-! ## Components -/

namespace Component

/-- What is looked at in each component of a tree that is not too deep. -/
structure Local (c : Component) : Prop where
  attributes : c.attributes.Shallow
  groups : ∀ g ∈ c.groups, g.Shallow
  routes : c.kind = .route → ∀ child ∈ c.children, child.kind ≠ .route

def checkUnder (parent c : Component) : Except Error Unit := do
  parent.checkChild c
  c.check

theorem checkChildren_eq_checkAll (parent : Component) (cs : List Component) :
    checkChildren parent cs = checkAll parent.checkUnder cs := by
  induction cs with
  | nil => rfl
  | cons c rest ih =>
      rw [checkChildren, checkAll, checkUnder, ih]
      cases parent.checkChild c <;> rfl

theorem check_eq (c : Component) :
    c.check = (c.attributes.check >>= fun _ =>
      ParameterGroup.checkGroups c.attributes.name c.groups >>= fun _ =>
      checkAll c.checkUnder c.components >>= fun _ => checkAll c.checkUnder c.errorHandlers) := by
  cases c
  simp only [check, checkChildren_eq_checkAll]

theorem checkUnder_eq_ok_iff {parent c : Component} :
    parent.checkUnder c = .ok () ↔ parent.checkChild c = .ok () ∧ c.check = .ok () :=
  check_bind_eq_ok_iff

theorem check_eq_ok_iff {c : Component} :
    c.check = .ok () ↔ c.attributes.Shallow ∧ (∀ g ∈ c.groups, g.Shallow) ∧
      ∀ child ∈ c.children, c.checkChild child = .ok () ∧ child.check = .ok () := by
  rw [check_eq]
  simp only [check_bind_eq_ok_iff, Attributes.check_eq_ok_iff, checkUnder_eq_ok_iff,
    ParameterGroup.checkGroups_eq_ok_iff, checkAll_eq_ok_iff, children, List.forall_mem_append]

/-- A child of a component that is not too deep can only be refused for being a route. -/
theorem checkChild_eq_ok_iff {c child : Component} (hc : c.nestingDepth ≤ maxComponentDepth)
    (hchild : child ∈ c.children) :
    c.checkChild child = .ok () ↔ ¬(c.kind = .route ∧ child.kind = .route) := by
  have hlt := nestingDepth_child_lt hchild
  unfold checkChild
  by_cases hroute : c.kind = .route ∧ child.kind = .route
  · simp [hroute]
  · rw [if_neg hroute, if_neg (by omega)]
    simp [hroute]

theorem check_eq_ok_iff_local {c : Component} (hc : c.nestingDepth ≤ maxComponentDepth) :
    c.check = .ok () ↔ ∀ d ∈ c.subtree, d.Local := by
  induction c using induct with
  | step c ih =>
      rw [check_eq_ok_iff, forall_mem_subtree_iff]
      have hchild (child : Component) (hmem : child ∈ c.children) :
          c.checkChild child = .ok () ∧ child.check = .ok () ↔
            ¬(c.kind = .route ∧ child.kind = .route) ∧ ∀ d ∈ child.subtree, d.Local := by
        -- The bound at the root holds below it, so no child is refused for its depth.
        have hlt := nestingDepth_child_lt hmem
        rw [checkChild_eq_ok_iff hc hmem, ih child hmem (by omega)]
      constructor
      · rintro ⟨hattributes, hgroups, hchildren⟩
        refine ⟨⟨hattributes, hgroups, fun hroute child hmem hkind => ?_⟩, fun child hmem => ?_⟩
        · exact ((hchild child hmem).1 (hchildren child hmem)).1 ⟨hroute, hkind⟩
        · exact ((hchild child hmem).1 (hchildren child hmem)).2
      · rintro ⟨hlocal, hchildren⟩
        refine ⟨hlocal.attributes, hlocal.groups, fun child hmem => (hchild child hmem).2 ⟨?_, ?_⟩⟩
        · rintro ⟨hroute, hkind⟩
          exact hlocal.routes hroute child hmem hkind
        · exact hchildren child hmem

theorem checkIn_eq_ok_iff {construct : String} {c : Component} :
    checkIn construct c = .ok () ↔
      c.nestingDepth ≤ maxComponentDepth ∧ ∀ d ∈ c.subtree, d.Local := by
  unfold checkIn
  by_cases h : maxComponentDepth < c.nestingDepth
  · simp [h]
  · rw [if_neg h, check_eq_ok_iff_local (Nat.le_of_not_lt h)]
    exact (and_iff_right (Nat.le_of_not_lt h)).symm

end Component

/-! ## Elements -/

namespace GlobalElement

/-- The rules for an element, part by part. -/
theorem legal_iff {e : GlobalElement} :
    e.Legal ↔ (∀ name, e.refName = some name → Location.IsGlobalName name) ∧
      e.attributes.Shallow ∧ (∀ g ∈ e.groups, g.Shallow) ∧
      (∀ n ∈ e.connection?, n.attributes.Shallow ∧ ∀ g ∈ n.groups, g.Shallow) ∧
      (∀ c ∈ e.roots, c.nestingDepth ≤ maxComponentDepth ∧ ∀ d ∈ c.subtree, d.Local) ∧
      ∀ p, e = .topLevelParameter p → p.value.depth ≤ maxValueDepth := by
  constructor
  · rintro ⟨hname, hlines, hroutes, hattributes, hgroups, hvalue⟩
    rw [forall_mem_nested_iff] at hroutes
    obtain ⟨hattributes, hconnection, hbelow⟩ := forall_mem_allAttributes_iff.1 hattributes
    obtain ⟨hgroups, hconnectionGroups, hgroupsBelow⟩ := forall_mem_allGroups_iff.1 hgroups
    have hdepth := Component.nestingDepth_le_iff_line.2 hlines
    refine ⟨hname, hattributes, hgroups, fun n hn => ?_, fun c hc => ?_, hvalue⟩
    · exact ⟨hconnection n hn, hconnectionGroups n hn⟩
    · refine ⟨hdepth c hc, fun d hd => ?_⟩
      exact ⟨hbelow c hc d hd, hgroupsBelow c hc d hd, hroutes c hc d hd⟩
  · rintro ⟨hname, hattributes, hgroups, hconnection, hroots, hvalue⟩
    have hlines := Component.nestingDepth_le_iff_line.1 fun c hc => (hroots c hc).1
    have hlocal : ∀ c ∈ e.roots, ∀ d ∈ c.subtree, d.Local := fun c hc => (hroots c hc).2
    refine ⟨hname, hlines, ?_, ?_, ?_, hvalue⟩
    · rw [forall_mem_nested_iff]
      exact fun c hc d hd => (hlocal c hc d hd).routes
    · rw [forall_mem_allAttributes_iff]
      exact ⟨hattributes, fun n hn => (hconnection n hn).1,
        fun c hc d hd => (hlocal c hc d hd).attributes⟩
    · rw [forall_mem_allGroups_iff]
      exact ⟨hgroups, fun n hn => (hconnection n hn).2,
        fun c hc d hd => (hlocal c hc d hd).groups⟩

theorem checkContent_eq_ok_iff {e : GlobalElement} :
    e.checkContent = .ok () ↔ (∀ g ∈ e.groups, g.Shallow) ∧
      (∀ n ∈ e.connection?, n.attributes.Shallow ∧ ∀ g ∈ n.groups, g.Shallow) ∧
      (∀ c ∈ e.roots, c.nestingDepth ≤ maxComponentDepth ∧ ∀ d ∈ c.subtree, d.Local) ∧
      ∀ p, e = .topLevelParameter p → p.value.depth ≤ maxValueDepth := by
  cases e with
  | configuration c =>
      rw [checkContent, check_bind_eq_ok_iff, ParameterGroup.checkGroups_eq_ok_iff]
      simp only [groups, connection?, roots]
      cases c.connection with
      | none => simp
      | some n =>
          simp [check_bind_eq_ok_iff, Attributes.check_eq_ok_iff,
            ParameterGroup.checkGroups_eq_ok_iff]
  | construct c =>
      rw [checkContent, check_bind_eq_ok_iff, ParameterGroup.checkGroups_eq_ok_iff,
        checkAll_eq_ok_iff]
      simp [groups, connection?, roots, Component.checkIn_eq_ok_iff]
  | topLevelParameter p =>
      rw [checkContent, checkDepth_eq_ok_iff]
      simp [groups, connection?, roots]

theorem check_eq_ok_iff {e : GlobalElement} : e.check = .ok () ↔ e.Legal := by
  rw [legal_iff, ← checkContent_eq_ok_iff, ← Attributes.check_eq_ok_iff]
  unfold check
  cases e.refName with
  | none => simp [check_bind_eq_ok_iff]
  | some name =>
      simp [check_bind_eq_ok_iff, mapError_eq_ok_iff, Location.checkGlobalName_eq_ok_iff]

end GlobalElement

/-! ## Artifacts -/

namespace Artifact

theorem checkElements_eq_ok_iff {seen : List String} {es : List GlobalElement} :
    checkElements seen es = .ok () ↔ (∀ e ∈ es, e.Legal) ∧
      (es.filterMap (·.refName)).Nodup ∧ ∀ name ∈ es.filterMap (·.refName), name ∉ seen := by
  induction es generalizing seen with
  | nil => simp [checkElements]
  | cons e rest ih =>
      unfold checkElements
      rw [List.forall_mem_cons]
      cases hname : e.refName with
      | none =>
          simp only [check_bind_eq_ok_iff, GlobalElement.check_eq_ok_iff, ih,
            List.filterMap_cons, hname, and_assoc]
      | some name =>
          simp only [List.filterMap_cons, hname, List.nodup_cons, List.forall_mem_cons]
          by_cases hseen : name ∈ seen
          · simp [hseen]
          · rw [if_neg hseen, check_bind_eq_ok_iff, GlobalElement.check_eq_ok_iff, ih]
            simp only [List.mem_cons, not_or]
            constructor
            · rintro ⟨he, hrest, hnodup, hfresh⟩
              exact ⟨⟨he, hrest⟩, ⟨fun hmem => (hfresh name hmem).1 rfl, hnodup⟩, hseen,
                fun other hmem => (hfresh other hmem).2⟩
            · rintro ⟨⟨he, hrest⟩, ⟨hnotMem, hnodup⟩, -, hfresh⟩
              refine ⟨he, hrest, hnodup, fun other hmem => ⟨?_, hfresh other hmem⟩⟩
              rintro rfl
              exact hnotMem hmem

theorem validate_eq_ok_iff {a : Artifact} : a.validate = .ok () ↔ a.Legal := by
  unfold validate
  rw [check_bind_eq_ok_iff, checkElements_eq_ok_iff, Attributes.check_eq_ok_iff]
  constructor
  · rintro ⟨⟨helements, hnames, -⟩, hattributes⟩
    exact ⟨hattributes, helements, hnames⟩
  · rintro ⟨hattributes, helements, hnames⟩
    exact ⟨⟨helements, hnames, by simp⟩, hattributes⟩

end Artifact

/-! ## Errors of the checks -/

/-- Whatever the check reports has the property. -/
def Reports (p : Error → Prop) (check : Except Error Unit) : Prop :=
  ∀ e, check = .error e → p e

section

variable {p : Error → Prop}

theorem reports_ok : Reports p (.ok ()) := by
  intro e he
  cases he

theorem reports_bind {x y : Except Error Unit} (hx : Reports p x) (hy : Reports p y) :
    Reports p (x >>= fun _ => y) := by
  intro e he
  rcases bind_eq_error_iff.1 he with hx' | ⟨_, -, hy'⟩
  · exact hx e hx'
  · exact hy e hy'

theorem reports_checkAll {α : Type} {check : α → Except Error Unit} {l : List α}
    (h : ∀ a ∈ l, Reports p (check a)) : Reports p (checkAll check l) := by
  induction l with
  | nil => exact reports_ok
  | cons a rest ih =>
      obtain ⟨ha, hrest⟩ := List.forall_mem_cons.1 h
      exact reports_bind ha (ih hrest)

variable (hvalue : ∀ element what, p (.invalidStructure element (.valueTooDeep what)))
include hvalue

theorem reports_checkDepth (element what : String) (depth : Nat) :
    Reports p (checkDepth element what depth) := by
  unfold checkDepth
  split
  · rintro _ ⟨⟩
    exact hvalue element what
  · exact reports_ok

theorem Attributes.reports_check (a : Attributes) : Reports p a.check :=
  reports_bind (reports_checkAll fun _ _ => reports_checkDepth hvalue _ _ _)
    (reports_checkAll fun _ _ => reports_checkDepth hvalue _ _ _)

theorem ParameterGroup.reports_checkGroups (element : String) (groups : List ParameterGroup) :
    Reports p (checkGroups element groups) :=
  reports_checkAll fun _ _ => reports_checkAll fun _ _ => reports_checkDepth hvalue _ _ _

/-- A component is reported for its values, or for a child in its tree. -/
theorem Component.reports_check {c : Component}
    (hchild : ∀ d ∈ c.subtree, ∀ child ∈ d.children, Reports p (d.checkChild child)) :
    Reports p c.check := by
  induction c using induct with
  | step c ih =>
      obtain ⟨hhere, hbelow⟩ := forall_mem_subtree_iff.1 hchild
      have hchildren : ∀ child ∈ c.children, Reports p (c.checkUnder child) :=
        fun child hmem => reports_bind (hhere child hmem) (ih child hmem (hbelow child hmem))
      obtain ⟨hcomponents, hhandlers⟩ := List.forall_mem_append.1 hchildren
      rw [check_eq]
      exact reports_bind (Attributes.reports_check hvalue _)
        (reports_bind (ParameterGroup.reports_checkGroups hvalue _ _)
          (reports_bind (reports_checkAll hcomponents) (reports_checkAll hhandlers)))

/-- An element is reported for its name, its values, or a component that stands directly in it. -/
theorem GlobalElement.reports_check {e : GlobalElement} (hlocation : ∀ f, p (.location f))
    (hroots : ∀ c ∈ e.roots, Reports p (Component.checkIn e.attributes.name c)) :
    Reports p e.check := by
  have hcontent : Reports p e.checkContent := by
    cases e with
    | configuration c =>
        refine reports_bind (ParameterGroup.reports_checkGroups hvalue _ _) ?_
        cases c.connection with
        | none => exact reports_ok
        | some n =>
            exact reports_bind (Attributes.reports_check hvalue _)
              (ParameterGroup.reports_checkGroups hvalue _ _)
    | construct c =>
        exact reports_bind (ParameterGroup.reports_checkGroups hvalue _ _)
          (reports_checkAll hroots)
    | topLevelParameter p => exact reports_checkDepth hvalue _ _ _
  have hrest : Reports p (do e.attributes.check; e.checkContent) :=
    reports_bind (Attributes.reports_check hvalue _) hcontent
  unfold check
  cases e.refName with
  | none => exact hrest
  | some name =>
      refine reports_bind ?_ hrest
      cases Location.checkGlobalName name with
      | ok _ => exact reports_ok
      | error f =>
          rintro _ ⟨⟩
          exact hlocation f

end

def ReportsBreaches (check : Except Error Unit) : Prop :=
  ∀ e, check = .error e → e.isStructural = true

theorem Component.reportsBreaches_checkIn (construct : String) (c : Component) :
    ReportsBreaches (checkIn construct c) := by
  have hcheck : ReportsBreaches c.check := by
    refine reports_check (fun _ _ => rfl) fun d _ child _ => ?_
    unfold checkChild
    split_ifs <;> rintro _ ⟨⟩ <;> rfl
  unfold checkIn
  split
  · rintro _ ⟨⟩
    rfl
  · exact hcheck

theorem GlobalElement.reportsBreaches_check (e : GlobalElement) : ReportsBreaches e.check :=
  reports_check (fun _ _ => rfl) (fun _ => rfl) fun _ _ => Component.reportsBreaches_checkIn _ _

namespace Artifact

theorem reportsBreaches_checkElements (seen : List String) (es : List GlobalElement) :
    ReportsBreaches (checkElements seen es) := by
  induction es generalizing seen with
  | nil => exact reports_ok
  | cons e rest ih =>
      unfold checkElements
      split
      · exact reports_bind (GlobalElement.reportsBreaches_check e) (ih seen)
      · split
        · rintro _ ⟨⟩
          rfl
        · exact reports_bind (GlobalElement.reportsBreaches_check e) (ih _)

theorem reportsBreaches_validate (a : Artifact) : ReportsBreaches a.validate :=
  reports_bind (reportsBreaches_checkElements [] a.globalElements)
    (Attributes.reports_check (fun _ _ => rfl) a.attributes)

/-- The checks accept the legal artifacts, and report every other one as a breach of the rules. -/
theorem validate_accepts_legal (a : Artifact) :
    (a.validate = .ok () ↔ a.Legal) ∧ ∀ e, a.validate = .error e → e.isStructural = true :=
  ⟨validate_eq_ok_iff, reportsBreaches_validate a⟩

end Artifact

end FlowArtifact
