import FlowArtifact.Proofs.Declaration.Building

/-!
# Reports of too many levels

Levels of components are compared with the limit twice: for each tree of a
construct, and for each child below.  A tree is looked into after the first
comparison only, so it has no more levels than the limit, and a child in it has
fewer.  The second comparison therefore refuses nothing, and too many levels are
reported of a construct: of the first one with such a tree, if the checks find
nothing before they come to this tree.
-/

namespace FlowArtifact

/-- What the checks of a list report is what they report of the first item that fails. -/
theorem checkAll_eq_error_iff {α : Type} {check : α → Except Error Unit} {l : List α} {e : Error} :
    checkAll check l = .error e ↔ ∃ before a after, l = before ++ a :: after ∧
      (∀ b ∈ before, check b = .ok ()) ∧ check a = .error e := by
  induction l with
  | nil => simp [checkAll]
  | cons a rest ih =>
      rw [checkAll, check_bind_eq_error_iff, ih]
      constructor
      · rintro (ha | ⟨ha, before, b, after, rfl, hbefore, hb⟩)
        · exact ⟨[], a, rest, rfl, List.forall_mem_nil _, ha⟩
        · exact ⟨a :: before, b, after, rfl, List.forall_mem_cons.2 ⟨ha, hbefore⟩, hb⟩
      · rintro ⟨before, b, after, hl, hbefore, hb⟩
        cases before with
        | nil =>
            cases hl
            exact .inl hb
        | cons first before =>
            cases hl
            obtain ⟨hfirst, hbefore⟩ := List.forall_mem_cons.1 hbefore
            exact .inr ⟨hfirst, before, b, after, rfl, hbefore, hb⟩

/-- The error is about too many levels of components. -/
def Error.BlamesDepth : Error → Prop
  | invalidStructure _ .componentsTooDeep => True
  | _ => False

def SilentOnDepth (check : Except Error Unit) : Prop := Reports (¬·.BlamesDepth) check

theorem SilentOnDepth.ne_error {check : Except Error Unit} (h : SilentOnDepth check)
    (name : String) : check ≠ .error (.invalidStructure name .componentsTooDeep) :=
  fun herror => h _ herror trivial

theorem silentOnDepth_attributes (a : Attributes) : SilentOnDepth a.check :=
  Attributes.reports_check (fun _ _ => id) a

theorem silentOnDepth_groups (element : String) (groups : List ParameterGroup) :
    SilentOnDepth (ParameterGroup.checkGroups element groups) :=
  ParameterGroup.reports_checkGroups (fun _ _ => id) element groups

/-! ## Components -/

namespace Component

variable {c d child : Component}

theorem nestingDepth_le_of_mem_subtree (c : Component) :
    ∀ d ∈ c.subtree, d.nestingDepth ≤ c.nestingDepth := by
  induction c using induct with
  | step c ih =>
      rw [forall_mem_subtree_iff]
      refine ⟨Nat.le_refl _, ?_⟩
      intro child hchild d hd
      calc
        d.nestingDepth ≤ child.nestingDepth := ih child hchild d hd
        _ ≤ c.nestingDepth := Nat.le_of_lt (nestingDepth_child_lt hchild)

/-- A child anywhere in a tree within the limit stays below the limit. -/
theorem nestingDepth_lt_of_mem_subtree (hc : c.nestingDepth ≤ maxComponentDepth)
    (hd : d ∈ c.subtree) (hchild : child ∈ d.children) :
    child.nestingDepth < maxComponentDepth :=
  calc
    child.nestingDepth < d.nestingDepth := nestingDepth_child_lt hchild
    _ ≤ c.nestingDepth := nestingDepth_le_of_mem_subtree c d hd
    _ ≤ maxComponentDepth := hc

theorem silentOnDepth_checkChild (h : child.nestingDepth < maxComponentDepth) :
    SilentOnDepth (c.checkChild child) := by
  unfold checkChild
  split
  · rintro _ ⟨⟩
    exact id
  · rw [if_neg (Nat.not_le.2 h)]
    exact reports_ok

/-- A tree within the limit is not reported for its levels once it is looked into. -/
theorem silentOnDepth_check (hc : c.nestingDepth ≤ maxComponentDepth) : SilentOnDepth c.check := by
  refine reports_check (fun _ _ => id) ?_
  intro d hd child hchild
  exact silentOnDepth_checkChild (nestingDepth_lt_of_mem_subtree hc hd hchild)

theorem checkIn_eq_tooDeep_iff {construct name : String} :
    checkIn construct c = .error (.invalidStructure name .componentsTooDeep) ↔
      construct = name ∧ maxComponentDepth < c.nestingDepth := by
  unfold checkIn
  by_cases hdeep : maxComponentDepth < c.nestingDepth
  · simp [hdeep]
  · rw [if_neg hdeep]
    have hsilent := (silentOnDepth_check (Nat.le_of_not_lt hdeep)).ne_error name
    exact iff_of_false hsilent fun h => hdeep h.2

end Component

/-! ## Elements -/

namespace GlobalElement

/-- The checks come to the trees of a construct if they find nothing in what stands before. -/
theorem check_construct_eq_tooDeep_iff {c : Construct} {name : String} :
    (construct c).check = .error (.invalidStructure name .componentsTooDeep) ↔
      (∀ refName, c.refName = some refName → Location.IsGlobalName refName) ∧
      c.attributes.Shallow ∧ (∀ g ∈ c.groups, g.Shallow) ∧
      checkAll (Component.checkIn c.attributes.name) (c.components ++ c.errorHandlers) =
        .error (.invalidStructure name .componentsTooDeep) := by
  have hattributes := (silentOnDepth_attributes c.attributes).ne_error name
  have hgroups := (silentOnDepth_groups c.attributes.name c.groups).ne_error name
  have hrest : (do c.attributes.check; (construct c).checkContent) =
        .error (.invalidStructure name .componentsTooDeep) ↔
      c.attributes.Shallow ∧ (∀ g ∈ c.groups, g.Shallow) ∧
        checkAll (Component.checkIn c.attributes.name) (c.components ++ c.errorHandlers) =
          .error (.invalidStructure name .componentsTooDeep) := by
    rw [check_bind_eq_error_iff, or_iff_right hattributes, checkContent, check_bind_eq_error_iff,
      or_iff_right hgroups, Attributes.check_eq_ok_iff, ParameterGroup.checkGroups_eq_ok_iff]
  rw [← hrest]
  cases hname : c.refName with
  | none => simp [check, refName, attributes, hname]
  | some refName =>
      simp only [check, GlobalElement.refName, attributes, hname, Option.some.injEq, forall_eq',
        ← Location.checkGlobalName_eq_ok_iff]
      cases Location.checkGlobalName refName with
      | ok _ => simp
      | error f => simp

theorem legal_trees_iff {c : Construct} {trees : List Component} :
    (construct { c with components := trees, errorHandlers := [] }).Legal ↔
      (∀ refName, c.refName = some refName → Location.IsGlobalName refName) ∧
      c.attributes.Shallow ∧ (∀ g ∈ c.groups, g.Shallow) ∧
      ∀ d ∈ trees, Component.checkIn c.attributes.name d = .ok () := by
  rw [legal_iff]
  simp [refName, attributes, groups, connection?, roots, Component.checkIn_eq_ok_iff]

/-- Too many levels are reported of a construct, for the first of its trees that has too many, if
the checks accept the construct with nothing but the trees before. -/
theorem check_eq_tooDeep_iff {e : GlobalElement} {name : String} :
    e.check = .error (.invalidStructure name .componentsTooDeep) ↔
      ∃ c trees root rest, e = .construct c ∧
        c.components ++ c.errorHandlers = trees ++ root :: rest ∧ c.attributes.name = name ∧
        maxComponentDepth < root.nestingDepth ∧
        (construct { c with components := trees, errorHandlers := [] }).Legal := by
  cases e with
  | configuration c =>
      have hsilent : SilentOnDepth (configuration c).check :=
        reports_check (fun _ _ => id) (fun _ => id) nofun
      exact iff_of_false (hsilent.ne_error name) (by simp)
  | topLevelParameter p =>
      have hsilent : SilentOnDepth (topLevelParameter p).check :=
        reports_check (fun _ _ => id) (fun _ => id) nofun
      exact iff_of_false (hsilent.ne_error name) (by simp)
  | construct c =>
      rw [check_construct_eq_tooDeep_iff, checkAll_eq_error_iff]
      constructor
      · rintro ⟨hname, hattributes, hgroups, trees, root, rest, htrees, hbefore, hroot⟩
        obtain ⟨hblamed, hdeep⟩ := Component.checkIn_eq_tooDeep_iff.1 hroot
        exact ⟨c, trees, root, rest, rfl, htrees, hblamed, hdeep,
          legal_trees_iff.2 ⟨hname, hattributes, hgroups, hbefore⟩⟩
      · rintro ⟨_, trees, root, rest, ⟨⟩, htrees, hblamed, hdeep, hlegal⟩
        obtain ⟨hname, hattributes, hgroups, hbefore⟩ := legal_trees_iff.1 hlegal
        exact ⟨hname, hattributes, hgroups, trees, root, rest, htrees, hbefore,
          Component.checkIn_eq_tooDeep_iff.2 ⟨hblamed, hdeep⟩⟩

end GlobalElement

/-! ## Artifacts -/

namespace Artifact

/-- Elements are checked one part of the list after the other, with the names that were seen. -/
theorem checkElements_append (seen : List String) (before after : List GlobalElement) :
    checkElements seen (before ++ after) = (do
      checkElements seen before
      checkElements ((before.filterMap (·.refName)).reverse ++ seen) after) := by
  induction before generalizing seen with
  | nil => rfl
  | cons e before ih =>
      rw [List.cons_append, checkElements, checkElements]
      cases hname : e.refName with
      | none => simp [hname, ih]
      | some name =>
          by_cases hseen : name ∈ seen
          · simp [hseen]
          · simp [hseen, hname, ih]

/-- What is reported of elements is what is reported of the first that fails. -/
theorem checkElements_eq_error_iff {seen : List String} {es : List GlobalElement} {err : Error} :
    checkElements seen es = .error err ↔ ∃ before e after, es = before ++ e :: after ∧
      checkElements seen before = .ok () ∧
      checkElements ((before.filterMap (·.refName)).reverse ++ seen) [e] = .error err := by
  constructor
  · intro h
    induction es using List.reverseRecOn with
    | nil => cases h
    | append_singleton es e ih =>
        rw [checkElements_append, check_bind_eq_error_iff] at h
        rcases h with hes | ⟨hes, he⟩
        · obtain ⟨before, x, after, rfl, hbefore, hx⟩ := ih hes
          exact ⟨before, x, after ++ [e], by simp, hbefore, hx⟩
        · exact ⟨es, e, [], rfl, hes, he⟩
  · rintro ⟨before, e, after, rfl, hbefore, he⟩
    rw [← List.singleton_append, checkElements_append, hbefore, ok_bind, checkElements_append, he,
      error_bind]

theorem checkElements_singleton_eq_tooDeep_iff {seen : List String} {e : GlobalElement}
    {name : String} :
    checkElements seen [e] = .error (.invalidStructure name .componentsTooDeep) ↔
      (∀ refName, e.refName = some refName → refName ∉ seen) ∧
        e.check = .error (.invalidStructure name .componentsTooDeep) := by
  unfold checkElements
  cases e.refName with
  | none => simp [checkElements, check_bind_eq_error_iff]
  | some refName =>
      by_cases hseen : refName ∈ seen
      · simp [hseen]
      · simp [hseen, checkElements, check_bind_eq_error_iff]

theorem legal_ofElements_iff {es : List GlobalElement} :
    (ofElements es).Legal ↔ checkElements [] es = .ok () := by
  rw [← validate_eq_ok_iff, validate, check_bind_eq_ok_iff, Attributes.check_eq_ok_iff]
  exact and_iff_left ⟨nofun, nofun⟩

theorem validate_eq_tooDeep_iff {a : Artifact} {name : String} :
    a.validate = .error (.invalidStructure name .componentsTooDeep) ↔
      ∃ before e after, a.globalElements = before ++ e :: after ∧ (ofElements before).Legal ∧
        (∀ refName, e.refName = some refName → refName ∉ before.filterMap (·.refName)) ∧
        e.check = .error (.invalidStructure name .componentsTooDeep) := by
  have hattributes := (silentOnDepth_attributes a.attributes).ne_error name
  rw [validate, check_bind_eq_error_iff, or_iff_left fun h => hattributes h.2,
    checkElements_eq_error_iff]
  simp only [checkElements_singleton_eq_tooDeep_iff, legal_ofElements_iff, List.append_nil,
    List.mem_reverse]

/-- Too many levels are reported of a construct, and of no component: of the first construct with
a tree of too many levels, if all that the checks come to before this tree is legal.  When a
component is looked into, no child anywhere in it has as many levels as the limit, so that no
child is refused for its levels. -/
theorem validate_reports_depth_of_construct :
    (∀ (a : Artifact) (name : String),
      a.validate = .error (.invalidStructure name .componentsTooDeep) ↔
        ∃ before c after trees root rest,
          a.globalElements = before ++ .construct c :: after ∧
          c.components ++ c.errorHandlers = trees ++ root :: rest ∧
          c.attributes.name = name ∧ maxComponentDepth < root.nestingDepth ∧
          (ofElements (before ++
            [.construct { c with components := trees, errorHandlers := [] }])).Legal) ∧
    ∀ c : Component, c.nestingDepth ≤ maxComponentDepth →
      (∀ name, c.check ≠ .error (.invalidStructure name .componentsTooDeep)) ∧
      ∀ d ∈ c.subtree, ∀ child ∈ d.children, child.nestingDepth < maxComponentDepth ∧
        ∀ name, d.checkChild child ≠ .error (.invalidStructure name .componentsTooDeep) := by
  constructor
  · intro a name
    simp only [validate_eq_tooDeep_iff, GlobalElement.check_eq_tooDeep_iff,
      legal_ofElements_append_iff]
    constructor
    · rintro ⟨before, _, after, ha, hbefore, hfree, c, trees, root, rest, rfl, htrees, hblamed,
        hdeep, hlegal⟩
      exact ⟨before, c, after, trees, root, rest, ha, htrees, hblamed, hdeep, hbefore, hlegal,
        hfree⟩
    · rintro ⟨before, c, after, trees, root, rest, ha, htrees, hblamed, hdeep, hbefore, hlegal,
        hfree⟩
      exact ⟨before, _, after, ha, hbefore, hfree, c, trees, root, rest, rfl, htrees, hblamed,
        hdeep, hlegal⟩
  · intro c hc
    refine ⟨(Component.silentOnDepth_check hc).ne_error, ?_⟩
    intro d hd child hchild
    have hlt := Component.nestingDepth_lt_of_mem_subtree hc hd hchild
    exact ⟨hlt, (Component.silentOnDepth_checkChild hlt).ne_error⟩

def scopes (levels : Nat) : Component :=
  Nat.repeat (fun c => { kind := .scope, attributes := .new "mule" "try", components := [c] })
    levels { attributes := .new "mule" "logger" }

/-- A flow whose error handler is one level too deep. -/
def deepFlow : Construct where
  attributes := .new "mule" "flow"
  refName := some "main"
  components := [scopes 31]
  errorHandlers := [scopes 32]

theorem validate_reports_depth_of_deepFlow :
    validate { globalElements := [.construct deepFlow] } =
        .error (.invalidStructure "flow" .componentsTooDeep) ∧
      (scopes 31).nestingDepth ≤ maxComponentDepth ∧
      ∀ name, (scopes 31).check ≠ .error (.invalidStructure name .componentsTooDeep) := by
  obtain ⟨hvalidate, hcheck⟩ := validate_reports_depth_of_construct
  have hshallow : (scopes 31).nestingDepth ≤ maxComponentDepth := by decide +kernel
  have hdeep : maxComponentDepth < (scopes 32).nestingDepth := by decide +kernel
  have hbefore : (ofElements [.construct { deepFlow with errorHandlers := [] }]).Legal :=
    validate_eq_ok_iff.1 (by decide +kernel)
  refine ⟨(hvalidate _ "flow").2 ?_, hshallow, (hcheck (scopes 31) hshallow).1⟩
  exact ⟨[], deepFlow, [], [scopes 31], scopes 32, [], rfl, rfl, rfl, hdeep, hbefore⟩

end Artifact

end FlowArtifact
