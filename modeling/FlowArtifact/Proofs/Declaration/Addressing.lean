import FlowArtifact.Proofs.Declaration.Listing
import FlowArtifact.Proofs.Declaration.Validity

/-!
# Listed locations and the resolver

In a legal artifact reference names are different, so the resolver begins at the
element that the listing began at.  From there on the parts of a listed location
are grouped into the steps again that the listing went along, and both come to
the same node.  The other way round, the resolver also comes to nodes behind a
message source; these are not listed.
-/

namespace FlowArtifact

open Location (indexLimit)

/-- No list of components in or below the declaration is longer than there are indexes; a longer one
does not fit any memory. -/
def Declaration.Countable (d : Declaration) : Prop :=
  d.children.length ≤ indexLimit ∧
    ∀ c ∈ Component.forest d.children, c.children.length ≤ indexLimit

instance : DecidablePred Declaration.Countable :=
  fun _ => inferInstanceAs (Decidable (_ ∧ _))

def Artifact.Countable (a : Artifact) : Prop :=
  ∀ e ∈ a.globalElements, (Declaration.ofElement e).Countable

instance : DecidablePred Artifact.Countable :=
  fun a => inferInstanceAs (Decidable (∀ e ∈ a.globalElements, _))

namespace Node

variable {n m : Node} {s : Step}

theorem countable_step (hs : s.IsStructural) (h : n.step? s = some m)
    (hn : n.declaration.Countable) : m.declaration.Countable := by
  obtain ⟨-, hbelow⟩ := hn
  rcases declaration_of_step? hs h with ⟨_, d, -, hd⟩ | ⟨c, hc, hd⟩
  · rw [hd]
    exact ⟨Nat.zero_le _, by simp [Declaration.children, Component.forest]⟩
  · rw [Component.forall_mem_forest_iff] at hbelow
    obtain ⟨hhere, hrest⟩ := Component.forall_mem_subtree_iff.1 (hbelow c hc)
    rw [hd]
    exact ⟨hhere, Component.forall_mem_forest_iff.2 hrest⟩

theorem length_processors_le (n : Node) :
    n.processors.length ≤ n.declaration.children.length := by
  unfold processors components?
  cases h : n.declaration.children? with
  | none => simp
  | some lists =>
      rw [Declaration.children_eq h, List.length_append, List.length_map]
      have hle := List.length_filter_le (!·.1.isSource) lists.1.zipIdx
      rw [List.length_zipIdx] at hle
      exact Nat.le_add_right_of_le hle

theorem length_errorHandlers_le (n : Node) :
    n.errorHandlers.length ≤ n.declaration.children.length := by
  unfold errorHandlers
  cases h : n.declaration.children? with
  | none => simp
  | some lists => simp [Declaration.children_eq h]

theorem inRange_step (h : n.step? s = some m) (hn : n.declaration.Countable) : s.InRange := by
  cases s with
  | processor i =>
      have hget : n.processors[i]? = some m := by rw [← processor?_eq]; exact h
      obtain ⟨hi, -⟩ := List.getElem?_eq_some_iff.1 hget
      exact Nat.lt_of_lt_of_le hi (Nat.le_trans n.length_processors_le hn.1)
  | errorHandler i =>
      have hget : (n.errorHandlers[i]?.map fun c => n.move (.errorHandler i) (.component c)) =
          some m := by rw [← errorHandler?_eq]; exact h
      obtain ⟨c, hc, -⟩ := Option.map_eq_some_iff.1 hget
      obtain ⟨hi, -⟩ := List.getElem?_eq_some_iff.1 hc
      exact Nat.lt_of_lt_of_le hi (Nat.le_trans n.length_errorHandlers_le hn.1)
  | _ => trivial

theorem inRange_steps {steps : List Step} (hs : ∀ s ∈ steps, s.IsStructural)
    (h : steps.foldlM step? n = some m) (hn : n.declaration.Countable) :
    ∀ s ∈ steps, s.InRange := by
  induction steps generalizing n with
  | nil => simp
  | cons s rest ih =>
      obtain ⟨hstep, hrest⟩ := List.forall_mem_cons.1 hs
      obtain ⟨next, hnext, h⟩ := foldlM_cons_eq_some_iff.1 h
      exact List.forall_mem_cons.2
        ⟨inRange_step hnext hn, ih hrest h (countable_step hstep hnext hn)⟩

end Node

def GlobalElement.named? (i : Nat) (e : GlobalElement) : Option (String × Node) :=
  e.refName.map (·, .ofElement i e)

namespace Artifact

variable {a : Artifact} {l : Location} {n : Node} {name : String}

def named (a : Artifact) : List (String × Node) :=
  a.globalElements.zipIdx.filterMap fun (e, i) => e.named? i

def listing (a : Artifact) : List (Location × Node) :=
  a.named.flatMap fun e => e.2.list ⟨e.1, []⟩

theorem map_named (a : Artifact) : a.named.map (·.1) = a.globalElements.filterMap (·.refName) := by
  conv_rhs => rw [← List.zipIdx_map_fst 0 a.globalElements, List.filterMap_map]
  simp [named, GlobalElement.named?, List.map_filterMap, Function.comp_def]

theorem mem_named_of_element? (h : a.element? name = some n) : (name, n) ∈ a.named := by
  simp only [element?, Option.bind_eq_bind, Option.bind_eq_some_iff, Option.pure_def,
    Option.some.injEq] at h
  obtain ⟨⟨e, i⟩, hfind, rfl⟩ := h
  have hname : e.refName = some name := by simpa using List.find?_some hfind
  exact List.mem_filterMap.2
    ⟨(e, i), List.mem_of_find?_eq_some hfind, by simp [GlobalElement.named?, hname]⟩

theorem element?_ne_none (h : (name, n) ∈ a.named) : a.element? name ≠ none := by
  obtain ⟨⟨e, i⟩, hmem, he⟩ := List.mem_filterMap.1 h
  obtain ⟨_, hname, hpair⟩ := Option.map_eq_some_iff.1 he
  cases hpair
  have hfind : a.globalElements.zipIdx.find? (·.1.refName = some name) ≠ none := by
    rw [ne_eq, List.find?_eq_none]
    exact fun hnone => hnone (e, i) hmem (by simpa using hname)
  obtain ⟨found, hfound⟩ := Option.ne_none_iff_exists'.1 hfind
  simp [element?, hfound]

theorem mem_named_iff (hnames : (a.globalElements.filterMap (·.refName)).Nodup) :
    (name, n) ∈ a.named ↔ a.element? name = some n := by
  refine ⟨fun h => ?_, mem_named_of_element?⟩
  obtain ⟨n', hn'⟩ := Option.ne_none_iff_exists'.1 (element?_ne_none h)
  rw [← map_named] at hnames
  cases List.inj_on_of_nodup_map hnames h (mem_named_of_element? hn') rfl
  exact hn'

theorem exists_of_element? (h : a.element? name = some n) :
    ∃ e ∈ a.globalElements, e.refName = some name ∧ n.declaration = .ofElement e := by
  obtain ⟨⟨e, i⟩, hmem, he⟩ := List.mem_filterMap.1 (mem_named_of_element? h)
  obtain ⟨_, hname, hpair⟩ := Option.map_eq_some_iff.1 he
  cases hpair
  exact ⟨e, List.fst_mem_of_mem_zipIdx hmem, hname, rfl⟩

theorem locations_element (i : Nat) {e : GlobalElement} (he : e.Legal) :
    e.locations i = .ok ((e.named? i).toList.flatMap fun e => e.2.list ⟨e.1, []⟩) := by
  unfold GlobalElement.locations GlobalElement.named?
  cases hname : e.refName with
  | none => rfl
  | some name =>
      have hcheck := Location.checkGlobalName_eq_ok_iff.2 (he.name name hname)
      have hroot : Location.Builder.empty.setGlobalName name = .ok ⟨some name, []⟩ := by
        simp [Location.Builder.setGlobalName, Location.Builder.empty, hcheck]
      have hbuild : (⟨some name, []⟩ : Location.Builder).build = .ok ⟨name, []⟩ := rfl
      have hbelow := e.listBelow_eq hbuild i
      simp [hroot, hbuild, Node.list_eq, hbelow, Node.ofElement]

theorem mapM_locations {es : List GlobalElement} (h : ∀ e ∈ es, e.Legal) (k : Nat) :
    ((es.zipIdx k).mapM fun (e, i) => e.locations i) = .ok ((es.zipIdx k).map fun (e, i) =>
      (e.named? i).toList.flatMap fun e => e.2.list ⟨e.1, []⟩) := by
  induction es generalizing k with
  | nil => rfl
  | cons e rest ih =>
      obtain ⟨he, hrest⟩ := List.forall_mem_cons.1 h
      simp only [List.zipIdx_cons, List.mapM_cons, locations_element k he, ih hrest, ok_bind,
        pure_eq_ok, List.map_cons]

/-- The locations of a legal artifact can be made, and are those of the listing. -/
theorem locations_eq (h : a.Legal) : a.locations = .ok a.listing := by
  rw [locations, mapM_locations h.elements, ok_bind, listing, named,
    List.filterMap_eq_flatMap_toList, List.flatMap_assoc]
  rfl

/-- The listing holds the ends of the listed paths below the elements. -/
theorem mem_listing_iff (h : a.Legal) : (l, n) ∈ a.listing ↔
    ∃ start steps, a.element? l.globalName = some start ∧ Node.Listed steps ∧
      steps.foldlM Node.step? start = some n ∧ l = Location.along ⟨l.globalName, []⟩ steps := by
  simp only [listing, List.mem_flatMap, Prod.exists, mem_named_iff h.names, Node.mem_list_iff]
  constructor
  · rintro ⟨name, start, hstart, steps, hsteps, hfold, rfl⟩
    exact ⟨start, steps, hstart, hsteps, hfold, rfl⟩
  · rintro ⟨start, steps, hstart, hsteps, hfold, hl⟩
    exact ⟨l.globalName, start, hstart, steps, hsteps, hfold, hl⟩

theorem nodup_listing (h : a.Legal) : (a.listing.map (·.1)).Nodup := by
  rw [listing, List.map_flatMap, List.nodup_flatMap]
  refine ⟨fun e _ => Node.nodup_list _ _, ?_⟩
  have hnames : a.named.Pairwise fun e e' => e.1 ≠ e'.1 := by
    rw [← List.pairwise_map (f := Prod.fst), map_named]
    exact h.names
  refine hnames.imp fun {e e'} hne => ?_
  refine List.disjoint_left.2 ?_
  simp only [List.mem_map]
  rintro _ ⟨f, hf, rfl⟩ ⟨f', hf', hl⟩
  obtain ⟨steps, -, -, hf⟩ := Node.mem_list_iff.1 hf
  obtain ⟨steps', -, -, hf'⟩ := Node.mem_list_iff.1 hf'
  rw [hf, hf'] at hl
  exact hne (congrArg Location.globalName hl).symm

/-- At a location of structural steps, the resolver goes along these steps. -/
theorem find?_eq_some_iff {steps : List Step} (hs : ∀ s ∈ steps, s.IsStructural)
    (hl : l.parts = steps.flatMap Step.parts) :
    a.find? l = some n ↔ ∃ start, a.element? l.globalName = some start ∧
      (∀ s ∈ steps, s.InRange) ∧ steps.foldlM Node.step? start = some n := by
  simp only [find?, Location.segments, hl, Option.bind_eq_bind, Option.bind_eq_some_iff,
    Step.ofSegments?_parts_eq_some_iff hs]
  constructor
  · rintro ⟨start, hstart, _, ⟨hrange, rfl⟩, hfold⟩
    exact ⟨start, hstart, hrange, hfold⟩
  · rintro ⟨start, hstart, hrange, hfold⟩
    exact ⟨start, hstart, steps, ⟨hrange, rfl⟩, hfold⟩

/-- The locations of an artifact that passes the checks are different.  Each is what the builder
makes of the calls for its steps, is read back from its text, and is resolved to the listed node,
which stands in the artifact where its trail says. -/
theorem find_of_mem_locations (hvalid : a.validate = .ok ()) (hcount : a.Countable) :
    ∃ listed, a.locations = .ok listed ∧ (listed.map (·.1)).Nodup ∧
      ∀ e ∈ listed,
        (∃ (steps : List Step) (b : Location.Builder), (∀ s ∈ steps, s.IsStructural) ∧
          Location.Builder.empty.run
            (.globalName e.1.globalName :: steps.flatMap Step.calls) = .ok b ∧
          b.build = .ok e.1) ∧
        Location.parse e.1.text = .ok e.1 ∧ a.find? e.1 = some e.2 ∧
        a.declarationAt? e.2.trail = some e.2.declaration := by
  have hlegal := validate_eq_ok_iff.1 hvalid
  refine ⟨a.listing, locations_eq hlegal, nodup_listing hlegal, fun ⟨l, n⟩ hmem => ?_⟩
  obtain ⟨start, steps, hstart, ⟨hs, -⟩, hfold, hl⟩ := (mem_listing_iff hlegal).1 hmem
  obtain ⟨e, he, hname, hd⟩ := exists_of_element? hstart
  have hglobal := Location.checkGlobalName_eq_ok_iff.2 ((hlegal.elements e he).name _ hname)
  obtain ⟨⟨b, hrun, hbuild⟩, hparse⟩ := Location.parse_along hglobal hs
  rw [← hl] at hbuild hparse
  have hrange := Node.inRange_steps hs hfold (hd ▸ hcount e he)
  have hparts : l.parts = steps.flatMap Step.parts := by rw [hl]; simp [Location.along]
  have hfind := (find?_eq_some_iff hs hparts).2 ⟨start, hstart, hrange, hfold⟩
  exact ⟨⟨steps, b, hs, hrun, hbuild⟩, hparse, hfind, Node.in_find hfind⟩

def listener : Artifact where
  globalElements := [.construct {
    refName := some "f"
    components := [{ kind := .source, components := [{}] }, { components := [{}] }] }]

theorem map_locations_listener {listed : List (Location × Node)}
    (h : listener.locations = .ok listed) : listed.map (·.1) =
      [⟨"f", []⟩, ⟨"f", ["source"]⟩, ⟨"f", ["processors", "0"]⟩,
        ⟨"f", ["processors", "0", "processors", "0"]⟩] := by
  have hlocations : listener.locations.toOption.map (List.map (·.1)) =
      some [⟨"f", []⟩, ⟨"f", ["source"]⟩, ⟨"f", ["processors", "0"]⟩,
        ⟨"f", ["processors", "0", "processors", "0"]⟩] := by
    decide +kernel
  rw [h] at hlocations
  exact Option.some.inj hlocations

theorem find_of_mem_locations_listener :
    listener.validate = .ok () ∧ listener.Countable ∧
      ∃ listed, listener.locations = .ok listed ∧
        listed.map (·.1.text) =
          ["f", "f/source", "f/processors/0", "f/processors/0/processors/0"] ∧
        (listed.map (·.1)).Nodup ∧
        ∀ e ∈ listed, Location.parse e.1.text = .ok e.1 ∧ listener.find? e.1 = some e.2 := by
  have hvalid : listener.validate = .ok () := by decide +kernel
  have hcount : listener.Countable := by decide +kernel
  obtain ⟨listed, hlisted, hnodup, hfind⟩ := find_of_mem_locations hvalid hcount
  refine ⟨hvalid, hcount, listed, hlisted, ?_, hnodup, fun e he => ?_⟩
  · have htexts := congrArg (List.map Location.text) (map_locations_listener hlisted)
    rw [List.map_map] at htexts
    exact htexts.trans (by decide +kernel)
  · exact ⟨(hfind e he).2.1, (hfind e he).2.2.1⟩

/-- A location of structural steps that the resolver finds is listed exactly if none of its steps
follows a step to a message source. -/
theorem mem_locations_iff_of_find (hvalid : a.validate = .ok ()) :
    ∃ listed, a.locations = .ok listed ∧
      ∀ (l : Location) (steps : List Step) (n : Node), (∀ s ∈ steps, s.IsStructural) →
        l.parts = steps.flatMap Step.parts → a.find? l = some n →
          ((l, n) ∈ listed ↔ ∀ s ∈ steps.dropLast, s ≠ .source) := by
  have hlegal := validate_eq_ok_iff.1 hvalid
  refine ⟨a.listing, locations_eq hlegal, fun l steps n hs hl hfind => ?_⟩
  obtain ⟨start, hstart, -, hfold⟩ := (find?_eq_some_iff hs hl).1 hfind
  rw [mem_listing_iff hlegal]
  constructor
  · rintro ⟨_, steps', _, hlisted, _, hl'⟩
    have hparts : steps.flatMap Step.parts = steps'.flatMap Step.parts := by
      rw [← hl, hl']
      simp [Location.along]
    rw [Step.parts_injective hs hlisted.1 hparts]
    exact hlisted.2
  · intro hsource
    refine ⟨start, steps, hstart, ⟨hs, hsource⟩, hfold, ?_⟩
    rw [Location.along, ← hl]
    rfl

theorem mem_locations_listener :
    ∃ listed, listener.locations = .ok listed ∧
      (⟨"f", ["processors", "0", "processors", "0"]⟩,
        ⟨[.component 0, .component 1, .element 0], .component {}⟩) ∈ listed := by
  obtain ⟨listed, hlisted, hmem⟩ := mem_locations_iff_of_find (a := listener) (by decide +kernel)
  refine ⟨listed, hlisted, ?_⟩
  exact (hmem _ [.processor 0, .processor 0] _ (by decide) rfl rfl).2 (by decide)

/-- A component that a message source owns is resolved and not listed. -/
theorem notMem_locations_below_source :
    ¬∀ (a : Artifact) (l : Location) (steps : List Step) (n : Node), a.validate = .ok () →
      (∀ s ∈ steps, s.IsStructural) → l.parts = steps.flatMap Step.parts →
        a.find? l = some n → ∃ listed, a.locations = .ok listed ∧ (l, n) ∈ listed := by
  intro h
  obtain ⟨listed, hlisted, hmem⟩ := h listener ⟨"f", ["source", "processors", "0"]⟩
    [.source, .processor 0] ⟨[.component 0, .component 0, .element 0], .component {}⟩
    (by decide +kernel) (by decide) rfl rfl
  have hlocation := List.mem_map_of_mem (f := Prod.fst) hmem
  rw [map_locations_listener hlisted] at hlocation
  revert hlocation
  decide

end Artifact

end FlowArtifact
