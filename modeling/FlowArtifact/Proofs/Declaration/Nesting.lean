import FlowArtifact.Declaration.Builder
import FlowArtifact.Proofs.Declaration.Validity

/-!
# Building components

The builder of a component looks at a child when it appends it: at the two kinds and
at the depth of the child, never at the tree above.  The child has fewer levels than
the limit exactly if the component has no more than that with it, so a tree that was
put together by the builder is not too deep, and no route in it owns a route.
-/

namespace FlowArtifact

def Error.BlamesNesting : Error → Prop
  | invalidStructure _ (.nestedRoute _) | invalidStructure _ .componentsTooDeep => True
  | _ => False

namespace Component

/-- What calls of the builder lead to.  A component that is appended was itself built so, and a
route that is appended was, whatever function completed it. -/
inductive Built : Component → Prop
  | new (kind : ComponentKind) (extension name : String) : Built (.new kind extension name)
  | metadata {c : Component} (key : String) (value : Datum) (hc : Built c) :
      Built (withMetadata key value c)
  | custom {c : Component} (name : String) (value : Value) (hc : Built c) :
      Built (withCustom name value c)
  | group {c : Component} (g : ParameterGroup) (hc : Built c) : Built (withGroup g c)
  | config {c : Component} (configRef : String) (hc : Built c) : Built (c.withConfig configRef)
  | component {c child c' : Component} (hc : Built c) (hchild : Built child)
      (h : c.withComponent child = .ok c') : Built c'
  | errorHandler {c child c' : Component} (hc : Built c) (hchild : Built child)
      (h : c.withErrorHandler child = .ok c') : Built c'
  | route {c route c' : Component} {name : String} {enrich : Component → Except Error Component}
      (hc : Built c) (henrich : enrich (.new .route c.attributes.extension name) = .ok route)
      (hroute : Built route) (h : c.withRoute name enrich = .ok c') : Built c'

/-- The tree of the component has no more levels than the limit, and no route in it owns a route. -/
structure Orderly (c : Component) : Prop where
  depth : c.nestingDepth ≤ maxComponentDepth
  routes : ∀ d ∈ c.subtree, d.kind = .route → ∀ child ∈ d.children, child.kind ≠ .route

variable {c c' child : Component}

/-! ## What is looked at -/

theorem checkChild_eq_ok_iff_lt : c.checkChild child = .ok () ↔
    ¬(c.kind = .route ∧ child.kind = .route) ∧ child.nestingDepth < maxComponentDepth := by
  unfold checkChild
  by_cases hroute : c.kind = .route ∧ child.kind = .route
  · simp [hroute]
  · by_cases hdepth : maxComponentDepth ≤ child.nestingDepth
    · simp [hroute, hdepth]
    · simp [hroute, hdepth, Nat.lt_of_not_le hdepth]

/-- A component is orderly if its children are, and were looked at. -/
theorem orderly_iff : c.Orderly ↔
    ∀ child ∈ c.children, c.checkChild child = .ok () ∧ child.Orderly := by
  constructor
  · -- Below the limit there is room for one level less, which is what is asked of a child.
    rintro ⟨hdepth, hroutes⟩ child hmem
    obtain ⟨hhere, hbelow⟩ := forall_mem_subtree_iff.1 hroutes
    have hlt := nestingDepth_child_lt hmem
    refine ⟨checkChild_eq_ok_iff_lt.2 ⟨?_, by omega⟩, by omega, hbelow child hmem⟩
    rintro ⟨hroute, hkind⟩
    exact hhere hroute child hmem hkind
  · intro h
    refine ⟨nestingDepth_le_succ_iff.2 fun child hmem => ?_,
      forall_mem_subtree_iff.2 ⟨fun hroute child hmem hkind => ?_, fun child hmem => ?_⟩⟩
    · exact Nat.le_of_lt_succ (checkChild_eq_ok_iff_lt.1 (h child hmem).1).2
    · exact (checkChild_eq_ok_iff_lt.1 (h child hmem).1).1 ⟨hroute, hkind⟩
    · exact (h child hmem).2.routes

/-- Children that were looked at can be added, and all but the children does not matter. -/
theorem Orderly.of_children (h : c.Orderly) (hkind : c'.kind = c.kind)
    (hchildren : ∀ d ∈ c'.children, d ∈ c.children ∨ c.checkChild d = .ok () ∧ d.Orderly) :
    c'.Orderly := by
  rw [orderly_iff] at h ⊢
  intro d hd
  rw [checkChild_eq_ok_iff_lt, hkind, ← checkChild_eq_ok_iff_lt]
  rcases hchildren d hd with hold | hnew
  · exact h d hold
  · exact hnew

theorem orderly_new (kind : ComponentKind) (extension name : String) :
    (new kind extension name).Orderly :=
  orderly_iff.2 nofun

theorem orderly_withComponent (hc : c.Orderly) (hchild : child.Orderly)
    (h : c.withComponent child = .ok c') : c'.Orderly := by
  obtain ⟨hcheck, rfl⟩ : c.checkChild child = .ok () ∧ _ = c' := by
    simpa [withComponent, check_bind_eq_ok_iff] using h
  refine hc.of_children rfl fun d hd => ?_
  simp only [children, List.mem_append, List.mem_singleton] at hd ⊢
  rcases hd with (hd | rfl) | hd
  · exact .inl (.inl hd)
  · exact .inr ⟨hcheck, hchild⟩
  · exact .inl (.inr hd)

theorem orderly_withErrorHandler (hc : c.Orderly) (hchild : child.Orderly)
    (h : c.withErrorHandler child = .ok c') : c'.Orderly := by
  obtain ⟨hcheck, rfl⟩ : c.checkChild child = .ok () ∧ _ = c' := by
    simpa [withErrorHandler, check_bind_eq_ok_iff] using h
  refine hc.of_children rfl fun d hd => ?_
  simp only [children, List.mem_append, List.mem_singleton] at hd ⊢
  rcases hd with hd | hd | rfl
  · exact .inl (.inl hd)
  · exact .inl (.inr hd)
  · exact .inr ⟨hcheck, hchild⟩

theorem orderly_withRoute {route : Component} {name : String}
    {enrich : Component → Except Error Component} (hc : c.Orderly) (hroute : route.Orderly)
    (henrich : enrich (.new .route c.attributes.extension name) = .ok route)
    (h : c.withRoute name enrich = .ok c') : c'.Orderly := by
  rw [withRoute, henrich, ok_bind] at h
  exact orderly_withComponent hc hroute h

theorem Built.orderly (h : Built c) : c.Orderly := by
  -- The cases are the calls; a child or route that is appended is orderly by induction as well.
  induction h with
  | new kind extension name => exact orderly_new kind extension name
  | metadata key value _ ih => exact ih.of_children rfl fun _ => .inl
  | custom name value _ ih => exact ih.of_children rfl fun _ => .inl
  | group g _ ih => exact ih.of_children rfl fun _ => .inl
  | config configRef _ ih => exact ih.of_children rfl fun _ => .inl
  | component _ _ h ihc ihchild => exact orderly_withComponent ihc ihchild h
  | errorHandler _ _ h ihc ihchild => exact orderly_withErrorHandler ihc ihchild h
  | route _ henrich _ h ihc ihroute => exact orderly_withRoute ihc ihroute henrich h

/-! ## What is reported -/

theorem exists_checkChild_eq_error_iff : (∃ e, c.checkChild child = .error e) ↔
    c.kind = .route ∧ child.kind = .route ∨ maxComponentDepth ≤ child.nestingDepth := by
  have hnot : (∃ e, c.checkChild child = .error e) ↔ ¬c.checkChild child = .ok () := by
    cases c.checkChild child <;> simp
  rw [hnot, checkChild_eq_ok_iff_lt, Classical.not_and_iff_not_or_not, not_not, Nat.not_lt]

theorem Orderly.of_mem_subtree (h : c.Orderly) : ∀ d ∈ c.subtree, d.Orderly := by
  induction c using induct with
  | step c ih =>
      rw [forall_mem_subtree_iff]
      exact ⟨h, fun child hmem => ih child hmem (orderly_iff.1 h child hmem).2⟩

/-- An orderly tree is not reported for its levels or routes. -/
theorem Orderly.reports_checkIn (h : c.Orderly) (construct : String) :
    Reports (¬·.BlamesNesting) (checkIn construct c) := by
  unfold checkIn
  rw [if_neg (Nat.not_lt.2 h.depth)]
  refine reports_check (fun _ _ => id) fun d hd child hmem => ?_
  rw [(orderly_iff.1 (h.of_mem_subtree d hd) child hmem).1]
  exact reports_ok

end Component

/-- A construct of orderly trees is not refused for their levels or routes. -/
theorem Artifact.not_blamesNesting_of_orderly {a : Artifact} {c : Construct} {e : Error}
    (hc : ∀ d ∈ c.components ++ c.errorHandlers, d.Orderly)
    (h : a.withGlobalElement (.construct c) = .error e) : ¬e.BlamesNesting := by
  have hcheck : Reports (¬·.BlamesNesting) (GlobalElement.construct c).check :=
    GlobalElement.reports_check (fun _ _ => id) (fun _ => id) fun d hd =>
      (hc d hd).reports_checkIn _
  rcases bind_eq_error_iff.1 h with herror | ⟨_, -, hrest⟩
  · exact hcheck e herror
  -- What comes after the checks is only about the name.
  · split at hrest
    · split_ifs at hrest
      · cases hrest
        exact id
      · cases hrest
    · cases hrest

namespace Component

/-- Components that were built have no more levels than the limit, and no route among them owns a
route, so no construct of them is refused for that.  Appending fails only for two routes, or for a
child that has as many levels as the limit already. -/
theorem orderly_of_built :
    (∀ c, Built c → c.nestingDepth ≤ maxComponentDepth ∧
      ∀ d ∈ c.subtree, d.kind = .route → ∀ child ∈ d.children, child.kind ≠ .route) ∧
    (∀ (x : Construct) (a : Artifact) (e : Error),
      (∀ c ∈ x.components ++ x.errorHandlers, Built c) →
        a.withGlobalElement (.construct x) = .error e → ¬e.BlamesNesting) ∧
    ∀ c child : Component,
      ((∃ e, c.withComponent child = .error e) ↔
        c.kind = .route ∧ child.kind = .route ∨ maxComponentDepth ≤ child.nestingDepth) ∧
      ((∃ e, c.withErrorHandler child = .error e) ↔
        c.kind = .route ∧ child.kind = .route ∨ maxComponentDepth ≤ child.nestingDepth) := by
  refine ⟨fun c hc => ⟨hc.orderly.depth, hc.orderly.routes⟩, fun x a e hx h => ?_,
    fun c child => ?_⟩
  · exact Artifact.not_blamesNesting_of_orderly (fun d hd => (hx d hd).orderly) h
  · rw [← exists_checkChild_eq_error_iff]
    exact ⟨exists_congr fun e => by simp [withComponent, bind_eq_error_iff],
      exists_congr fun e => by simp [withErrorHandler, bind_eq_error_iff]⟩

/-- A route is completed with an operation and appended to a router. -/
theorem orderly_of_built_choice : ∃ c : Component,
    withRoute "when" (·.withComponent (.new .operation "core" "logger"))
        (.new .router "core" "choice") = .ok c ∧
      Built c ∧ c.nestingDepth ≤ maxComponentDepth ∧
      (∀ d ∈ c.subtree, d.kind = .route → ∀ child ∈ d.children, child.kind ≠ .route) ∧
      ∀ (a : Artifact) (e : Error),
        a.withGlobalElement (.construct { components := [c] }) = .error e →
          ¬e.BlamesNesting := by
  obtain ⟨c, h⟩ : ∃ c, withRoute "when" (·.withComponent (.new .operation "core" "logger"))
      (.new .router "core" "choice") = .ok c := ⟨_, rfl⟩
  have hroute : Built { new .route "core" "when" with
      components := [new .operation "core" "logger"] } :=
    .component (.new .route "core" "when") (.new .operation "core" "logger") rfl
  have hc : Built c := by
    refine .route (.new .router "core" "choice") ?_ hroute h
    rfl
  obtain ⟨hbuilt, haccepted, -⟩ := orderly_of_built
  exact ⟨c, h, hc, (hbuilt c hc).1, (hbuilt c hc).2,
    fun a e => haccepted { components := [c] } a e (by simpa using hc)⟩

end Component

end FlowArtifact
