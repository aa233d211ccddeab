import FlowArtifact.Proofs.Declaration.Path
import FlowArtifact.Proofs.Declaration.Position
import FlowArtifact.Proofs.Declaration.Tree
import Mathlib.Data.List.Nodup

/-!
# What is listed for a node

A node owns what its structural steps lead to.  The listing of a node goes
through the nodes that it owns and below each of them, but not below a message
source.  The builder makes this listing and fails nowhere, since every word that
it appends may stand behind the one before.  So what is listed are the nodes at
the ends of the paths that do not go on behind a message source, each with its
location, and no location twice.
-/

namespace FlowArtifact

namespace Declaration

def children : Declaration → List Component
  | construct c => c.components ++ c.errorHandlers
  | component c => c.children
  | _ => []

/-- What structural steps lead to is lower. -/
def height : Declaration → Nat
  | configuration _ => 1
  | construct c => Component.nestingDepths (c.components ++ c.errorHandlers) + 1
  | component c => c.nestingDepth
  | _ => 0

theorem children_eq {d : Declaration} {lists : List Component × List Component}
    (h : d.children? = some lists) : d.children = lists.1 ++ lists.2 := by
  cases d <;> first | (cases h; rfl) | cases h

theorem nestingDepth_lt_height {d : Declaration} {c : Component} (h : c ∈ d.children) :
    c.nestingDepth < d.height := by
  cases d with
  | construct _ => exact Nat.lt_succ_of_le (Component.nestingDepths_le_iff.1 (Nat.le_refl _) c h)
  | component _ => exact Component.nestingDepth_child_lt h
  | _ => cases h

end Declaration

namespace Node

variable {n m : Node} {s : Step}

/-- A structural step leads to the connection, or to a component that stands directly in the
declaration. -/
theorem declaration_of_step? (hs : s.IsStructural) (h : n.step? s = some m) :
    (∃ c d, n.declaration = .configuration c ∧ m.declaration = .connection d) ∨
      ∃ c ∈ n.declaration.children, m.declaration = .component c := by
  cases s with
  | connection =>
      obtain ⟨c, d, hc, -, rfl⟩ := connection?_eq_some h
      exact .inl ⟨c, d, hc, rfl⟩
  | source =>
      obtain ⟨lists, i, c, hlists, hc, rfl⟩ := source?_eq_some h
      exact .inr ⟨c, by simp [Declaration.children_eq hlists, List.mem_of_getElem? hc], rfl⟩
  | processor i =>
      obtain ⟨lists, j, c, hlists, hc, rfl⟩ := processor?_eq_some h
      exact .inr ⟨c, by simp [Declaration.children_eq hlists, List.mem_of_getElem? hc], rfl⟩
  | errorHandler i =>
      obtain ⟨lists, c, hlists, hc, rfl⟩ := errorHandler?_eq_some h
      exact .inr ⟨c, by simp [Declaration.children_eq hlists, List.mem_of_getElem? hc], rfl⟩
  | name text => exact hs.elim

theorem height_lt (hs : s.IsStructural) (h : n.step? s = some m) :
    m.declaration.height < n.declaration.height := by
  rcases declaration_of_step? hs h with ⟨c, d, hc, hd⟩ | ⟨c, hc, hd⟩
  · rw [hc, hd]
    exact Nat.one_pos
  · rw [hd]
    exact Declaration.nestingDepth_lt_height hc

/-- What passes to a node from those that structural steps lead to holds of every node. -/
theorem induct {motive : Node → Prop}
    (step : ∀ n : Node, (∀ s m, s.IsStructural → n.step? s = some m → motive m) → motive n)
    (n : Node) : motive n := by
  apply step n
  intro s m hs h
  exact induct step m
termination_by n.declaration.height
decreasing_by exact height_lt hs h

/-! ## What a node owns -/

def processors (n : Node) : List Node :=
  ((n.components?.getD []).filter (!·.1.isSource)).map fun (c, i) =>
    n.move (.component i) (.component c)

def errorHandlers (n : Node) : List Component := (n.declaration.children?.map (·.2)).getD []

def owned (n : Node) : List (Step × Node) :=
  n.connection?.toList.map (.connection, ·) ++ n.source?.toList.map (.source, ·) ++
    n.processors.zipIdx.map (fun (m, i) => (.processor i, m)) ++
    n.errorHandlers.zipIdx.map fun (c, i) =>
      (.errorHandler i, n.move (.errorHandler i) (.component c))

theorem processor?_eq (n : Node) (i : Nat) : n.processor? i = n.processors[i]? := by
  unfold processor? processors
  cases n.components? with
  | none => simp
  | some cs => cases h : (cs.filter (!·.1.isSource))[i]? <;> simp [h]

theorem errorHandler?_eq (n : Node) (i : Nat) : n.errorHandler? i =
    n.errorHandlers[i]?.map fun c => n.move (.errorHandler i) (.component c) := by
  unfold errorHandler? errorHandlers
  cases n.declaration.children? with
  | none => simp
  | some lists => cases h : lists.2[i]? <;> simp [h]

theorem mem_owned_iff : (s, m) ∈ n.owned ↔ s.IsStructural ∧ n.step? s = some m := by
  cases s <;>
    simp [owned, step?, Step.IsStructural, processor?_eq, errorHandler?_eq,
      List.mem_zipIdx_iff_getElem?]

theorem map_owned (n : Node) : n.owned.map (·.1) =
    n.connection?.toList.map (fun _ => Step.connection) ++
      n.source?.toList.map (fun _ => Step.source) ++
      (List.range n.processors.length).map Step.processor ++
      (List.range n.errorHandlers.length).map Step.errorHandler := by
  simp [owned, List.range_eq_range', ← List.zipIdx_map_snd, Function.comp_def]

theorem nodup_owned (n : Node) : (n.owned.map (·.1)).Nodup := by
  have honce (s : Step) (o : Option Node) : (o.toList.map fun _ => s).Nodup := by
    cases o <;> simp
  have hprocessors : ((List.range n.processors.length).map Step.processor).Nodup :=
    List.nodup_range.map fun i j h => Step.processor.inj h
  have hhandlers : ((List.range n.errorHandlers.length).map Step.errorHandler).Nodup :=
    List.nodup_range.map fun i j h => Step.errorHandler.inj h
  rw [map_owned, List.nodup_append', List.nodup_append', List.nodup_append']
  refine ⟨⟨⟨honce _ _, honce _ _, ?_⟩, hprocessors, ?_⟩, hhandlers, ?_⟩
  · simp [List.disjoint_left]
  · simp +contextual [List.disjoint_left, or_imp]
  · simp +contextual [List.disjoint_left, or_imp]

theorem owned_of_children?_eq_none (h : n.declaration.children? = none) :
    n.owned = n.connection?.toList.map (.connection, ·) := by
  simp [owned, source?, components?, processors, errorHandlers, h]

/-! ## What is listed -/

/-- A node and what is listed below it: all that it owns, and nothing that a message source owns. -/
def list (l : Location) (n : Node) : List (Location × Node) :=
  (l, n) :: n.owned.attach.flatMap fun ⟨e, _⟩ =>
    if e.1 = .source then [(l.extend e.1, e.2)] else e.2.list (l.extend e.1)
termination_by n.declaration.height
decreasing_by
  rename_i hmem _
  exact height_lt (mem_owned_iff.1 hmem).1 (mem_owned_iff.1 hmem).2

def listAt (l : Location) (e : Step × Node) : List (Location × Node) :=
  if e.1 = .source then [(l.extend e.1, e.2)] else e.2.list (l.extend e.1)

theorem list_eq (l : Location) (n : Node) : n.list l = (l, n) :: n.owned.flatMap (listAt l) := by
  rw [list, List.flatMap_subtype (g := listAt l) fun _ _ => rfl, List.unattach_attach]

end Node

/-! ## The listing that the builder makes -/

namespace Component

open Location (Builder)
open Location.Builder (addToken_of_build addIndex_push_token build_push build_push_push)

variable {b : Builder} {l : Location} {trail : List Move}

/-- The builder fails nowhere below the component, and what it makes is the listing of a node. -/
def ListedBelow (c : Component) : Prop :=
  ∀ {b : Builder} {l : Location} (trail : List Move), b.build = .ok l →
    c.listBelow b trail = .ok ((Node.mk trail (.component c)).owned.flatMap (Node.listAt l))

theorem listSource_eq (hb : b.build = .ok l) (number : Nat) (cs : List Component) :
    listSource b trail number cs =
      .ok (((cs.zipIdx number).find? (·.1.isSource)).toList.map fun (c, i) =>
        (l.extend .source, ⟨.component i :: trail, .component c⟩)) := by
  induction cs generalizing number with
  | nil => rfl
  | cons c rest ih =>
      rw [listSource, List.zipIdx_cons, List.find?_cons]
      by_cases hc : c.isSource = true
      · simp only [hc, if_true, addToken_of_build hb, build_push hb, ok_bind, pure_eq_ok]
        rfl
      · simp [hc, ih]

theorem listProcessors_eq (hb : b.build = .ok l) (number count : Nat) (cs : List Component)
    (hcs : ∀ c ∈ cs, c.ListedBelow) :
    listProcessors (b.push Location.Token.processors.text) trail number count cs =
      .ok ((((cs.zipIdx number).filter (!·.1.isSource)).zipIdx count).flatMap fun ((c, i), j) =>
        Node.list (l.extend (.processor j)) ⟨.component i :: trail, .component c⟩) := by
  induction cs generalizing number count with
  | nil => rfl
  | cons c rest ih =>
      obtain ⟨hc, hrest⟩ := List.forall_mem_cons.1 hcs
      rw [listProcessors, List.zipIdx_cons, List.filter_cons]
      by_cases hsource : c.isSource = true
      · simp [hsource, ih _ _ hrest]
      · have hhere := build_push_push hb Location.Token.processors.text
          (String.ofList (digitChars count))
        simp [hsource, addIndex_push_token hb, hhere, hc _ hhere, ih _ _ hrest, Node.list_eq,
          Location.extend, Step.parts]

theorem listHandlers_eq (hb : b.build = .ok l) (number : Nat) (cs : List Component)
    (hcs : ∀ c ∈ cs, c.ListedBelow) :
    listHandlers (b.push Location.Token.errorHandler.text) trail number cs =
      .ok ((cs.zipIdx number).flatMap fun (c, i) =>
        Node.list (l.extend (.errorHandler i)) ⟨.errorHandler i :: trail, .component c⟩) := by
  induction cs generalizing number with
  | nil => rfl
  | cons c rest ih =>
      obtain ⟨hc, hrest⟩ := List.forall_mem_cons.1 hcs
      have hhere := build_push_push hb Location.Token.errorHandler.text
        (String.ofList (digitChars number))
      rw [listHandlers, List.zipIdx_cons, List.flatMap_cons]
      simp [addIndex_push_token hb, hhere, hc _ hhere, ih _ hrest, Node.list_eq,
        Location.extend, Step.parts]

/-- What a node owns as a container is listed as the container of a component is. -/
theorem listBelow_container {n : Node} {components errorHandlers : List Component}
    (h : n.declaration.children? = some (components, errorHandlers)) (hb : b.build = .ok l)
    (hchildren : ∀ c ∈ components ++ errorHandlers, c.ListedBelow) :
    listBelow b n.trail { components, errorHandlers } = .ok (n.owned.flatMap (Node.listAt l)) := by
  obtain ⟨trail, declaration⟩ := n
  obtain ⟨hcomponents, hhandlers⟩ := List.forall_mem_append.1 hchildren
  have hconnection : Node.connection? ⟨trail, declaration⟩ = none := by
    cases declaration <;> first | rfl | cases h
  have hsource : (Node.source? ⟨trail, declaration⟩).toList.flatMap
      (fun m => Node.listAt l (.source, m)) =
        ((components.zipIdx.find? (·.1.isSource)).toList.map fun (c, i) =>
          (l.extend .source, ⟨.component i :: trail, .component c⟩)) := by
    cases hfind : components.zipIdx.find? (·.1.isSource) <;>
      simp [Node.source?, Node.components?, h, hfind, Node.listAt, Node.move]
  rw [listBelow, listSource_eq hb, addToken_of_build hb, addToken_of_build hb]
  simp only [ok_bind, listProcessors_eq hb _ _ _ hcomponents, listHandlers_eq hb _ _ hhandlers,
    pure_eq_ok, Except.ok.injEq]
  simp only [Node.owned, hconnection, Option.toList_none, List.map_nil, List.nil_append,
    List.flatMap_append, List.flatMap_map, hsource]
  congr 1
  · simp [Node.processors, Node.components?, h, List.zipIdx_map, List.flatMap_map, Node.listAt,
      Node.move]
  · simp [Node.errorHandlers, h, Node.listAt, Node.move]

theorem listedBelow (c : Component) : c.ListedBelow := by
  induction c using induct with
  | step c ih =>
      intro b l trail hb
      cases c
      exact listBelow_container (n := ⟨trail, .component _⟩) rfl hb ih

end Component

theorem GlobalElement.listBelow_eq {b : Location.Builder} {l : Location} (hb : b.build = .ok l)
    (i : Nat) (e : GlobalElement) : e.listBelow b [.element i] =
      .ok ((Node.ofElement i e).owned.flatMap (Node.listAt l)) := by
  cases e with
  | configuration c =>
      rw [listBelow, Node.owned_of_children?_eq_none rfl]
      cases h : c.connection with
      | none => simp [Node.connection?, Node.ofElement, Declaration.ofElement, h]
      | some d =>
          have hnothing : (⟨[.connection, .element i], .connection d⟩ : Node).owned = [] := rfl
          simp [Location.Builder.addToken_of_build hb, Location.Builder.build_push hb,
            Node.connection?, Node.ofElement, Declaration.ofElement, Node.move, h, Node.listAt,
            Node.list_eq, hnothing, Location.extend, Step.parts]
  | construct c =>
      exact Component.listBelow_container (n := .ofElement i (.construct c)) rfl hb
        fun c _ => c.listedBelow
  | topLevelParameter p => rfl

namespace Node

variable {n m : Node} {s : Step} {l : Location}

/-! ## Listed paths -/

/-- The steps are structural, and none follows a step to a message source. -/
def Listed (steps : List Step) : Prop :=
  (∀ s ∈ steps, s.IsStructural) ∧ ∀ s ∈ steps.dropLast, s ≠ .source

theorem listed_cons_iff {rest : List Step} :
    Listed (s :: rest) ↔ s.IsStructural ∧ (s = .source → rest = []) ∧ Listed rest := by
  cases rest with
  | nil => simp [Listed]
  | cons s' rest =>
      simp only [Listed, List.forall_mem_cons, List.dropLast_cons_cons, reduceCtorEq]
      tauto

theorem mem_listAt_iff {e : Location × Node} : e ∈ listAt l (s, m) ↔
    s = .source ∧ e = (l.extend s, m) ∨ s ≠ .source ∧ e ∈ m.list (l.extend s) := by
  by_cases h : s = .source <;> simp [listAt, h]

/-- The listing of a node holds the ends of the listed paths below it. -/
theorem mem_list_iff {e : Location × Node} : e ∈ n.list l ↔
    ∃ steps, Listed steps ∧ steps.foldlM step? n = some e.2 ∧ e.1 = l.along steps := by
  obtain ⟨l', n'⟩ := e
  induction n using induct generalizing l with
  | step n ih =>
      rw [list_eq]
      simp only [List.mem_cons, List.mem_flatMap, Prod.exists, mem_owned_iff, mem_listAt_iff]
      constructor
      · rintro (h | ⟨s, m, ⟨hs, hstep⟩, ⟨hsource, h⟩ | ⟨hsource, h⟩⟩)
        · cases h
          exact ⟨[], by simp [Listed], rfl, by simp⟩
        · cases h
          exact ⟨[s], by simp [Listed, hs], by simp [hstep], by simp [Location.along_cons]⟩
        · obtain ⟨rest, hrest, hfold, hl⟩ := (ih s m hs hstep).1 h
          refine ⟨s :: rest, listed_cons_iff.2 ⟨hs, fun h => absurd h hsource, hrest⟩, ?_, ?_⟩
          · exact foldlM_cons_eq_some_iff.2 ⟨m, hstep, hfold⟩
          · rw [Location.along_cons, ← hl]
      · rintro ⟨steps, hsteps, hfold, hl⟩
        cases steps with
        | nil =>
            cases hfold
            rw [Location.along_nil] at hl
            exact .inl (by rw [← hl])
        | cons s rest =>
            obtain ⟨hs, hlast, hrest⟩ := listed_cons_iff.1 hsteps
            obtain ⟨m, hstep, hfold⟩ := foldlM_cons_eq_some_iff.1 hfold
            rw [Location.along_cons] at hl
            refine .inr ⟨s, m, ⟨hs, hstep⟩, ?_⟩
            -- A source is listed but not entered, so the path ends with it.
            by_cases hsource : s = .source
            · cases hlast hsource
              cases hfold
              rw [Location.along_nil] at hl
              exact .inl ⟨hsource, by rw [← hl]⟩
            · exact .inr ⟨hsource, (ih s m hs hstep).2 ⟨rest, hrest, hfold, hl⟩⟩

theorem along_of_mem_listAt (hs : s.IsStructural) {e : Location × Node}
    (h : e ∈ listAt l (s, m)) :
    ∃ rest, (∀ s' ∈ s :: rest, s'.IsStructural) ∧ e.1 = l.along (s :: rest) := by
  rcases mem_listAt_iff.1 h with ⟨-, rfl⟩ | ⟨-, h⟩
  · exact ⟨[], by simpa using hs, by simp [Location.along_cons]⟩
  · obtain ⟨rest, hrest, -, hl⟩ := mem_list_iff.1 h
    exact ⟨rest, List.forall_mem_cons.2 ⟨hs, hrest.1⟩, by rw [hl, Location.along_cons]⟩

theorem nodup_list (n : Node) (l : Location) : ((n.list l).map (·.1)).Nodup := by
  induction n using induct generalizing l with
  | step n ih =>
      rw [list_eq, List.map_cons, List.nodup_cons, List.map_flatMap, List.nodup_flatMap]
      refine ⟨fun hmem => ?_, fun ⟨s, m⟩ hmem => ?_, ?_⟩
      · simp only [List.mem_flatMap, List.mem_map] at hmem
        obtain ⟨⟨s, m⟩, hmem, e, he, hl⟩ := hmem
        obtain ⟨rest, hrest, he⟩ := along_of_mem_listAt (mem_owned_iff.1 hmem).1 he
        have heq : l.along (s :: rest) = l.along [] := by rw [← he, hl, Location.along_nil]
        cases Location.along_injective hrest (by simp) heq
      · obtain ⟨hs, hstep⟩ := mem_owned_iff.1 hmem
        unfold listAt
        split
        next => simp
        next => exact ih s m hs hstep _
      · have hne : n.owned.Pairwise fun e e' => e.1 ≠ e'.1 := List.pairwise_map.1 n.nodup_owned
        refine hne.imp_of_mem fun {e e'} hmem hmem' hne => ?_
        refine List.disjoint_left.2 ?_
        simp only [List.mem_map]
        rintro _ ⟨f, hf, rfl⟩ ⟨f', hf', hl⟩
        -- The locations listed for different steps begin with these steps.
        obtain ⟨rest, hrest, hf⟩ := along_of_mem_listAt (mem_owned_iff.1 hmem).1 hf
        obtain ⟨rest', hrest', hf'⟩ := along_of_mem_listAt (mem_owned_iff.1 hmem').1 hf'
        rw [hf, hf'] at hl
        exact hne (List.cons.inj (Location.along_injective hrest' hrest hl)).1.symm

end Node

end FlowArtifact
