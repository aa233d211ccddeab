import FlowArtifact.Proofs.Declaration.Addressing

/-!
# Resolving a location in two parts

The parts of a location can be divided wherever a step ends.  The resolver then goes
along the first parts to a node, and along the others from that node on; where the
others lead depends on the declaration of the node and not on the way to it.
-/

namespace FlowArtifact

namespace Location

def withParts (l : Location) (parts : List String) : Location :=
  { l with parts := l.parts ++ parts }

/-- The parts, read from the left, end where a step ends: `processors` and `errorHandler` make up
one step with the part behind them, every other part is a step of its own. -/
inductive Whole : List String → Prop
  | nil : Whole []
  | single {part : String} {rest : List String} (hprocessors : part ≠ "processors")
      (herrorHandler : part ≠ "errorHandler") (hrest : Whole rest) : Whole (part :: rest)
  | double {part next : String} {rest : List String}
      (hpart : part = "processors" ∨ part = "errorHandler") (hrest : Whole rest) :
      Whole (part :: next :: rest)

end Location

namespace Step

open Location

theorem text_of_classify {part : String} {t : Token} (h : Segment.classify part = .token t) :
    part = t.text := by
  unfold Segment.classify at h
  split_ifs at h with hsource hconnection hprocessors herrorHandler
  all_goals
    cases h
    assumption

theorem map_cons_bind (s : Step) (first others : Option (List Step)) :
    (first.bind fun steps => others.map (steps ++ ·)).map (s :: ·) =
      (first.map (s :: ·)).bind fun steps => others.map (steps ++ ·) := by
  cases first <;> cases others <;> rfl

/-- Whole parts are grouped into steps before those behind them are. -/
theorem ofSegments?_append {parts : List String} (hwhole : Whole parts)
    (segments : List Segment) :
    ofSegments? (parts.map Segment.classify ++ segments) =
      (ofSegments? (parts.map Segment.classify)).bind fun steps =>
        (ofSegments? segments).map (steps ++ ·) := by
  induction hwhole with
  | nil => simp [ofSegments?]
  | @single part rest hprocessors herrorHandler _ ih =>
      simp only [List.map_cons, List.cons_append]
      cases hpart : Segment.classify part with
      | token t =>
          have htext := text_of_classify hpart
          cases t with
          | source => simp only [ofSegments?, ih, map_cons_bind]
          | connection => simp only [ofSegments?, ih, map_cons_bind]
          | processors => exact absurd htext hprocessors
          | errorHandler => exact absurd htext herrorHandler
      | index i => rfl
      | name text => simp only [ofSegments?, ih, map_cons_bind]
  | @double part next rest hpart _ ih =>
      simp only [List.map_cons, List.cons_append]
      obtain rfl | rfl := hpart
      · rw [show Segment.classify "processors" = .token .processors from rfl]
        cases Segment.classify next with
        | index i => simp only [ofSegments?, ih, map_cons_bind]
        | token t => rfl
        | name text => rfl
      · rw [show Segment.classify "errorHandler" = .token .errorHandler from rfl]
        cases Segment.classify next with
        | index i => simp only [ofSegments?, ih, map_cons_bind]
        | token t => rfl
        | name text => rfl

theorem whole_single {part : String} {rest : List String} (hrest : Whole rest)
    (hprocessors : Segment.classify part ≠ .token .processors)
    (herrorHandler : Segment.classify part ≠ .token .errorHandler) : Whole (part :: rest) :=
  .single (fun hpart => hprocessors (hpart ▸ rfl)) (fun hpart => herrorHandler (hpart ▸ rfl)) hrest

/-- Parts that are grouped into steps are whole. -/
theorem whole_of_ofSegments? {parts : List String} {steps : List Step}
    (h : ofSegments? (parts.map Segment.classify) = some steps) : Whole parts := by
  generalize hsegments : parts.map Segment.classify = segments at h
  fun_induction ofSegments? segments generalizing parts steps with
  | case1 =>
      rw [List.map_eq_nil_iff.1 hsegments]
      exact .nil
  | case2 rest ih | case3 rest ih | case6 text rest ih =>
      obtain ⟨part, parts, rfl, hpart, hrest⟩ := List.map_eq_cons_iff.1 hsegments
      obtain ⟨_, h, -⟩ := Option.map_eq_some_iff.1 h
      exact whole_single (ih hrest h) (by simp [hpart]) (by simp [hpart])
  | case4 i rest ih | case5 i rest ih =>
      obtain ⟨part, parts, rfl, hpart, hparts⟩ := List.map_eq_cons_iff.1 hsegments
      obtain ⟨next, parts, rfl, -, hrest⟩ := List.map_eq_cons_iff.1 hparts
      obtain ⟨_, h, -⟩ := Option.map_eq_some_iff.1 h
      exact .double (by simp [text_of_classify hpart, Token.text]) (ih hrest h)
  | case7 => cases h

end Step

namespace Node

def under (n : Node) (trail : List Move) : Node := ⟨n.trail ++ trail, n.declaration⟩

theorem inGroups?_under (n : Node) (trail : List Move) (groups : List ParameterGroup)
    (name : String) :
    (n.under trail).inGroups? groups name = (n.inGroups? groups name).map (·.under trail) := by
  unfold inGroups?
  cases groups.zipIdx.find? (·.1.name = name) with
  | some e => rfl
  | none =>
      simp only [List.map_findSome?, Function.comp_def, Option.map_map]
      rfl

/-- A step depends on the declaration alone, and only adds a move to the trail. -/
theorem step?_under (n : Node) (s : Step) (trail : List Move) :
    (n.under trail).step? s = (n.step? s).map (·.under trail) := by
  cases s with
  | connection =>
      obtain ⟨moves, d⟩ := n
      cases d <;> simp [step?, connection?, under, move, Function.comp_def]
  | source =>
      simp only [step?, source?, Option.bind_eq_bind, Option.map_bind, Function.comp_def]
      rfl
  | processor i =>
      simp only [step?, processor?, Option.bind_eq_bind, Option.map_bind, Function.comp_def]
      rfl
  | errorHandler i =>
      simp only [step?, errorHandler?, Option.bind_eq_bind, Option.map_bind, Function.comp_def]
      rfl
  | name text =>
      simp only [step?, named?, Option.bind_eq_bind]
      cases hgroups : n.declaration.groups? with
      | some groups =>
          rw [show (n.under trail).declaration.groups? = some groups from hgroups]
          exact inGroups?_under n trail groups text
      | none =>
          rw [show (n.under trail).declaration.groups? = none from hgroups]
          simp only [Option.map_bind, Function.comp_def]
          rfl

theorem foldlM_step?_under (n : Node) (steps : List Step) (trail : List Move) :
    steps.foldlM step? (n.under trail) = (steps.foldlM step? n).map (·.under trail) := by
  induction steps generalizing n with
  | nil => rfl
  | cons s rest ih =>
      simp only [List.foldlM_cons, step?_under, Option.bind_eq_bind]
      cases n.step? s with
      | none => rfl
      | some next => exact ih next

end Node

/-- What parts lead to from a declaration on, with the moves below it. -/
def Declaration.below? (d : Declaration) (parts : List String) : Option Node := do
  (← Step.ofSegments? (parts.map Location.Segment.classify)).foldlM Node.step? ⟨[], d⟩

namespace Artifact

open Location

variable {a : Artifact} {l : Location} {n : Node}

theorem whole_of_find? (h : a.find? l = some n) : Whole l.parts := by
  obtain ⟨-, steps, -, hsteps, -⟩ := exists_steps_of_find? h
  exact Step.whole_of_ofSegments? hsteps

/-- The resolver goes along whole parts first, and along the others from where it came to. -/
theorem find?_withParts (hwhole : Whole l.parts) (a : Artifact) (parts : List String) :
    a.find? (l.withParts parts) =
      (a.find? l).bind fun n => (n.declaration.below? parts).map (·.under n.trail) := by
  unfold find? Declaration.below?
  simp only [segments, withParts, List.map_append, Step.ofSegments?_append hwhole,
    Option.bind_eq_bind]
  cases a.element? l.globalName with
  | none => rfl
  | some start =>
      cases Step.ofSegments? (l.parts.map Segment.classify) with
      | none => rfl
      | some steps =>
          simp only [Option.bind_some]
          cases Step.ofSegments? (parts.map Segment.classify) with
          | none => cases steps.foldlM Node.step? start <;> rfl
          | some others =>
              simp only [Option.map_some, Option.bind_some, List.foldlM_append,
                Option.bind_eq_bind]
              congr 1
              funext n
              exact Node.foldlM_step?_under ⟨[], n.declaration⟩ others n.trail

theorem find?_withParts_of_find? (h : a.find? l = some n) (parts : List String) :
    a.find? (l.withParts parts) = (n.declaration.below? parts).map (·.under n.trail) := by
  rw [find?_withParts (whole_of_find? h), h, Option.bind_some]

/-- The resolver finds nothing behind whole parts at which it finds nothing, so it finds something
at all whole parts that a location begins with if it finds something at the location.  What it finds
behind whole parts is fixed by the declaration at these parts: behind the same declaration, at
another location or in another artifact, the same moves lead it to the same declaration. -/
theorem find?_withParts_of_whole (hwhole : Whole l.parts) (a : Artifact) (parts : List String) :
    (a.find? l = none → a.find? (l.withParts parts) = none) ∧
      (∀ n, a.find? l = some n →
        ∀ (a' : Artifact) (l' : Location) (n' : Node), a'.find? l' = some n' →
          n'.declaration = n.declaration →
            ∃ below : Option Node, a.find? (l.withParts parts) = below.map (·.under n.trail) ∧
              a'.find? (l'.withParts parts) = below.map (·.under n'.trail)) ∧
      ∀ m, a.find? (l.withParts parts) = some m → ∃ n, a.find? l = some n := by
  refine ⟨fun h => ?_, fun n h a' l' n' h' hd => ⟨n.declaration.below? parts, ?_, ?_⟩,
    fun m h => ?_⟩
  · rw [find?_withParts hwhole, h, Option.bind_none]
  · exact find?_withParts_of_find? h parts
  · rw [find?_withParts_of_find? h' parts, hd]
  · rw [find?_withParts hwhole, Option.bind_eq_some_iff] at h
    obtain ⟨n, hn, -⟩ := h
    exact ⟨n, hn⟩

def guarded : Artifact where
  globalElements := [.construct {
    refName := some "g"
    errorHandlers := [{ components := [{}] }] }]

theorem find?_withParts_listener :
    Whole ["processors", "0"] ∧
      (∃ below : Option Node,
        listener.find? ⟨"f", ["processors", "0", "processors", "0"]⟩ =
            below.map (·.under [.component 1, .element 0]) ∧
          guarded.find? ⟨"g", ["errorHandler", "0", "processors", "0"]⟩ =
            below.map (·.under [.errorHandler 0, .element 0])) ∧
      guarded.find? ⟨"g", ["errorHandler", "0", "processors", "0"]⟩ =
        some ⟨[.component 0, .errorHandler 0, .element 0], .component {}⟩ := by
  have hwhole : Whole ["processors", "0"] := .double (.inl rfl) .nil
  obtain ⟨-, hbelow, -⟩ := find?_withParts_of_whole (l := ⟨"f", ["processors", "0"]⟩) hwhole
    listener ["processors", "0"]
  exact ⟨hwhole, hbelow _ rfl guarded ⟨"g", ["errorHandler", "0"]⟩ _ rfl rfl, rfl⟩

end Artifact

end FlowArtifact
