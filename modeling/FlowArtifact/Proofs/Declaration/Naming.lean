import FlowArtifact.Declaration.Builder
import FlowArtifact.Proofs.Declaration.Prefix
import FlowArtifact.Proofs.Location.Grammar

/-!
# Groups and parameters by name

Below a resolved location a part that is a name stands for a group or a parameter.  Where
there are groups the first group of the name is meant, and if there is none the
parameter in the first group that has it; elsewhere the parameter of the name is meant.
-/

namespace FlowArtifact

namespace Location

/-- A part that is neither a word with a meaning of its own nor an index. -/
structure IsName (text : String) : Prop where
  nonempty : text ≠ ""
  clean : ∀ c ∈ text.toList, c ∉ ['/', '[', ']', '{', '}', '#']
  notIndex : ¬IsIndex text
  notToken : text ∉ ["source", "connection", "processors", "errorHandler"]

theorem not_isIndex_of_mem {text : String} {c : Char} (hmem : c ∈ text.toList)
    (hc : ¬('0' ≤ c ∧ c ≤ '9')) : ¬IsIndex text :=
  fun h => hc (h.2 c hmem)

theorem IsName.isNumeric_eq_false {text : String} (h : IsName text) : isNumeric text = false :=
  Bool.eq_false_iff.2 fun hnumeric => h.notIndex (isNumeric_iff_isIndex.1 hnumeric)

theorem classify_of_isName {text : String} (h : IsName text) :
    Segment.classify text = .name text := by
  obtain ⟨hsource, hconnection, hprocessors, herrorHandler⟩ :
      text ≠ "source" ∧ text ≠ "connection" ∧ text ≠ "processors" ∧ text ≠ "errorHandler" := by
    simpa using h.notToken
  simp [Segment.classify, Token.text, hsource, hconnection, hprocessors, herrorHandler,
    h.isNumeric_eq_false]

/-- A name may follow every part but `processors`. -/
theorem addPart_of_isName {b : Builder} {l : Location} {text : String} (h : IsName text)
    (hb : b.build = .ok l) (hlast : l.parts.getLast? ≠ some "processors") :
    ∃ b', b.addPart text = .ok b' ∧ b'.build = .ok (l.extend (.name text)) := by
  obtain ⟨hname, hpath⟩ := (Builder.build_eq_ok_iff b l).1 hb
  have hfollow : ∀ last ∈ b.path.head?, MayFollow last text := by
    intro last hmem
    rw [hpath, List.head?_reverse, Option.mem_def] at hmem
    refine ⟨?_, by simp [h.isNumeric_eq_false]⟩
    rintro rfl
    exact absurd hmem hlast
  refine ⟨b.push text, (Builder.addPart_eq_ok_iff _ _ _).2
    ⟨by simp [hname], checkText_eq_ok_iff.2 ⟨h.nonempty, h.clean⟩, hfollow, rfl⟩, ?_⟩
  exact Builder.build_push hb text

end Location

theorem Step.getLast?_ne_of_ofSegments? {segments : List Location.Segment} {steps : List Step}
    (h : ofSegments? segments = some steps) :
    segments.getLast? ≠ some (.token .processors) := by
  -- A step ends with a word of its own, a name or an index, and what follows it is steps again.
  fun_induction ofSegments? segments generalizing steps with
  | case1 => simp
  | case2 rest ih | case3 rest ih | case6 text rest ih =>
      obtain ⟨_, h, -⟩ := Option.map_eq_some_iff.1 h
      cases rest with
      | nil => simp
      | cons segment rest =>
          rw [List.getLast?_cons_cons]
          exact ih h
  | case4 i rest ih | case5 i rest ih =>
      obtain ⟨_, h, -⟩ := Option.map_eq_some_iff.1 h
      cases rest with
      | nil => simp
      | cons segment rest =>
          rw [List.getLast?_cons_cons, List.getLast?_cons_cons]
          exact ih h
  | case7 => cases h

/-- What a name stands for below a declaration, and the move to it. -/
inductive Declaration.Names (d : Declaration) (name : String) : Move → Declaration → Prop
  | group {before after : List ParameterGroup} {g : ParameterGroup}
      (hgroups : d.groups? = some (before ++ g :: after))
      (hname : g.name = name) (hbefore : ∀ g' ∈ before, g'.name ≠ name) :
      d.Names name (.group before.length) (.group g)
  | parameter {before after : List ParameterGroup} {g : ParameterGroup} {v : Value}
      (hgroups : d.groups? = some (before ++ g :: after))
      (hnone : ∀ g' ∈ before ++ g :: after, g'.name ≠ name)
      (hvalue : g.parameters.get? name = some v)
      (hbefore : ∀ g' ∈ before, g'.parameters.get? name = none) :
      d.Names name (.parameter before.length name) (.parameter name v)
  | field {parameters : NameMap Value} {v : Value} (hparameters : d.parameters? = some parameters)
      (hvalue : parameters.get? name = some v) : d.Names name (.field name) (.parameter name v)

theorem Value.asObject?_eq_none {v : Value} (h : v.kind ≠ .object) : v.asObject? = none := by
  unfold Value.kind at h
  unfold Value.asObject?
  cases hview : v.view with
  | leaf s => rfl
  | list items => rfl
  | record typeId parameters => simp [hview] at h

theorem Declaration.parameters?_of_groups? {d : Declaration} {groups : List ParameterGroup}
    (h : d.groups? = some groups) : d.parameters? = none := by
  cases d with
  | topLevelParameter | group | parameter => cases h
  | configuration | connection | construct | component => rfl

theorem forall_mem_zipIdx_iff {α : Type} {l : List α} {p : α → Prop} :
    (∀ e ∈ l.zipIdx, p e.1) ↔ ∀ x ∈ l, p x := by
  conv_rhs => rw [← List.zipIdx_map_fst 0 l, List.forall_mem_map]

/-- An element stands behind others in a numbered list as it does in the list, and the number of the
others is its number. -/
theorem exists_zipIdx_eq_append_cons_iff {α : Type} {l : List α} {p : α → Prop} {x : α} {i : Nat} :
    (∃ first others, l.zipIdx = first ++ (x, i) :: others ∧ ∀ e ∈ first, p e.1) ↔
      ∃ before after, l = before ++ x :: after ∧ i = before.length ∧ ∀ y ∈ before, p y := by
  constructor
  · rintro ⟨_, _, heq, hfirst⟩
    obtain ⟨before, rest, rfl, rfl, hrest⟩ := List.zipIdx_eq_append_iff.1 heq
    obtain ⟨y, after, rfl, he, -⟩ := List.zipIdx_eq_cons_iff.1 hrest.symm
    rw [Nat.zero_add, Prod.mk.injEq] at he
    obtain ⟨rfl, rfl⟩ := he
    exact ⟨before, after, rfl, rfl, forall_mem_zipIdx_iff.1 hfirst⟩
  · rintro ⟨before, after, rfl, rfl, hbefore⟩
    refine ⟨before.zipIdx, after.zipIdx (before.length + 1), ?_,
      forall_mem_zipIdx_iff.2 hbefore⟩
    rw [List.zipIdx_append, List.zipIdx_cons, Nat.zero_add]

namespace Node

variable {n m : Node} {groups : List ParameterGroup} {name : String}

theorem find?_group_eq_some_iff {g : ParameterGroup} {i : Nat} :
    groups.zipIdx.find? (·.1.name = name) = some (g, i) ↔
      g.name = name ∧ ∃ before after, groups = before ++ g :: after ∧ i = before.length ∧
        ∀ g' ∈ before, g'.name ≠ name := by
  rw [List.find?_eq_some_iff_append, decide_eq_true_eq, ← exists_zipIdx_eq_append_cons_iff]
  simp only [Bool.not_eq_true', decide_eq_false_iff_not, ne_eq]

theorem find?_group_eq_none_iff :
    groups.zipIdx.find? (·.1.name = name) = none ↔ ∀ g ∈ groups, g.name ≠ name := by
  simp only [List.find?_eq_none, decide_eq_true_eq]
  exact forall_mem_zipIdx_iff (p := fun g : ParameterGroup => g.name ≠ name)

theorem findSome?_parameter_eq_some_iff :
    (groups.zipIdx.findSome? fun (g, i) =>
        (g.parameters.get? name).map fun v => n.move (.parameter i name) (.parameter name v)) =
        some m ↔
      ∃ before g after v, groups = before ++ g :: after ∧ g.parameters.get? name = some v ∧
        (∀ g' ∈ before, g'.parameters.get? name = none) ∧
        m = n.move (.parameter before.length name) (.parameter name v) := by
  rw [List.findSome?_eq_some_iff]
  simp only [Option.map_eq_none_iff, Option.map_eq_some_iff]
  constructor
  · rintro ⟨first, ⟨g, i⟩, others, heq, ⟨v, hv, rfl⟩, hfirst⟩
    obtain ⟨before, after, hgroups, rfl, hbefore⟩ :=
      (exists_zipIdx_eq_append_cons_iff (p := (·.parameters.get? name = none))).1
        ⟨first, others, heq, hfirst⟩
    exact ⟨before, g, after, v, hgroups, hv, hbefore, rfl⟩
  · rintro ⟨before, g, after, v, hgroups, hv, hbefore, rfl⟩
    obtain ⟨first, others, heq, hfirst⟩ :=
      exists_zipIdx_eq_append_cons_iff.2 ⟨before, after, hgroups, rfl, hbefore⟩
    exact ⟨first, (g, before.length), others, heq, ⟨v, hv, rfl⟩, hfirst⟩

theorem inGroups?_eq_some_iff (hgroups : n.declaration.groups? = some groups) :
    n.inGroups? groups name = some m ↔
      ∃ move d, n.declaration.Names name move d ∧ m = n.move move d := by
  unfold inGroups?
  constructor
  · intro h
    -- Parameters are only looked for when no group has the name.
    split at h
    next g i hfind =>
      obtain ⟨hname, before, after, rfl, rfl, hbefore⟩ := find?_group_eq_some_iff.1 hfind
      exact ⟨_, _, .group hgroups hname hbefore, (Option.some.inj h).symm⟩
    next hnone =>
      rw [find?_group_eq_none_iff] at hnone
      obtain ⟨before, g, after, v, rfl, hv, hbefore, rfl⟩ := findSome?_parameter_eq_some_iff.1 h
      exact ⟨_, _, .parameter hgroups hnone hv hbefore, rfl⟩
  · rintro ⟨_, _, hnames, rfl⟩
    cases hnames with
    | @group before after g hgroups' hname hbefore =>
        cases hgroups.symm.trans hgroups'
        rw [find?_group_eq_some_iff.2 ⟨hname, before, after, rfl, rfl, hbefore⟩]
    | @parameter before after g v hgroups' hnone hv hbefore =>
        cases hgroups.symm.trans hgroups'
        rw [find?_group_eq_none_iff.2 hnone]
        exact findSome?_parameter_eq_some_iff.2 ⟨before, g, after, v, rfl, hv, hbefore, rfl⟩
    | field hparameters hv =>
        rw [Declaration.parameters?_of_groups? hgroups] at hparameters
        cases hparameters

/-- The resolver takes a name for what it stands for. -/
theorem named?_eq_some_iff :
    n.named? name = some m ↔ ∃ move d, n.declaration.Names name move d ∧ m = n.move move d := by
  unfold named?
  cases hgroups : n.declaration.groups? with
  | some groups => exact inGroups?_eq_some_iff hgroups
  | none =>
      simp only [Option.bind_eq_bind, Option.bind_eq_some_iff, Option.pure_def, Option.some.injEq]
      constructor
      · rintro ⟨parameters, hparameters, v, hv, rfl⟩
        exact ⟨_, _, .field hparameters hv, rfl⟩
      · rintro ⟨_, _, hnames, rfl⟩
        cases hnames with
        | group hgroups' => cases hgroups.symm.trans hgroups'
        | parameter hgroups' => cases hgroups.symm.trans hgroups'
        | field hparameters hv => exact ⟨_, hparameters, _, hv, rfl⟩

/-- A group that is first of its name is what the name stands for. -/
theorem named?_of_first {g : ParameterGroup} (hgroups : n.declaration.groups? = some groups)
    (h : ParameterGroup.named? groups name = some g) :
    ∃ i, n.named? name = some (n.move (.group i) (.group g)) := by
  obtain ⟨hname, before, after, rfl, hbefore⟩ := List.find?_eq_some_iff_append.1 h
  rw [decide_eq_true_eq] at hname
  simp only [Bool.not_eq_true', decide_eq_false_iff_not] at hbefore
  exact ⟨before.length, named?_eq_some_iff.2 ⟨_, _, .group hgroups hname hbefore, rfl⟩⟩

end Node

namespace Artifact

open Location

variable {a : Artifact} {l : Location} {n : Node} {name : String}

theorem find?_extend_of_isName (h : a.find? l = some n) (hname : IsName name) :
    a.find? (l.extend (.name name)) = n.named? name := by
  have hbelow : n.declaration.below? [name] = (⟨[], n.declaration⟩ : Node).named? name := by
    simp [Declaration.below?, classify_of_isName hname, Step.ofSegments?, Node.step?]
  have hstep := Node.step?_under ⟨[], n.declaration⟩ (.name name) n.trail
  calc a.find? (l.extend (.name name)) = _ := find?_withParts_of_find? h [name]
    _ = (Node.under ⟨[], n.declaration⟩ n.trail).named? name := by rw [hbelow]; exact hstep.symm
    _ = n.named? name := rfl

theorem getLast?_parts_ne_of_find? (h : a.find? l = some n) :
    l.parts.getLast? ≠ some "processors" := by
  obtain ⟨-, steps, -, hsteps, -⟩ := exists_steps_of_find? h
  intro hlast
  apply Step.getLast?_ne_of_ofSegments? hsteps
  rw [segments, List.getLast?_map, hlast]
  rfl

/-- Below a group of a declaration, a name stands for what the declaration has for a parameter of
the name in the first group of the group's name. -/
theorem find?_extend_group {groups : List ParameterGroup} {name' : String}
    (h : a.find? l = some n) (hgroups : n.declaration.groups? = some groups)
    (hgroup : ∃ g ∈ groups, g.name = name) (hname : IsName name) (hname' : IsName name') :
    (a.find? ((l.extend (.name name)).extend (.name name'))).map (·.declaration) =
      (ParameterGroup.parameter? groups name name').map (.parameter name') := by
  obtain ⟨g, hg⟩ : ∃ g, ParameterGroup.named? groups name = some g :=
    Option.isSome_iff_exists.1 (List.find?_isSome.2 (by simpa using hgroup))
  obtain ⟨i, hi⟩ := n.named?_of_first hgroups hg
  have hfind : a.find? (l.extend (.name name)) = some (n.move (.group i) (.group g)) := by
    rw [find?_extend_of_isName h hname, hi]
  rw [find?_extend_of_isName hfind hname', ParameterGroup.parameter?, hg, Option.bind_eq_bind,
    Option.bind_some]
  simp only [Node.named?, Node.move, Declaration.groups?, Declaration.parameters?,
    Option.bind_eq_bind, Option.bind_some]
  cases g.parameters.get? name' <;> rfl

/-- A location that is resolved can be extended by every name, and is then resolved to what the name
stands for: where there are groups, to the first group of the name, if there is none to the
parameter in the first group that has it; elsewhere to the parameter of the name.  Nothing stands
below a parameter that is no object, and the name of a group can be followed by that of a
parameter. -/
theorem find?_extend_name (h : a.find? l = some n) (hname : IsName name) :
    (∀ b : Builder, b.build = .ok l →
      ∃ b', b.addPart name = .ok b' ∧ b'.build = .ok (l.extend (.name name))) ∧
    (∀ m, a.find? (l.extend (.name name)) = some m ↔
      ∃ move d, n.declaration.Names name move d ∧ m = n.move move d) ∧
    (∀ p v, n.declaration = .parameter p v → v.kind ≠ .object →
      a.find? (l.extend (.name name)) = none) ∧
    ∀ groups, n.declaration.groups? = some groups → (∃ g ∈ groups, g.name = name) →
      ∀ name', IsName name' →
        (a.find? ((l.extend (.name name)).extend (.name name'))).map (·.declaration) =
          (ParameterGroup.parameter? groups name name').map (.parameter name') := by
  refine ⟨fun b hb => addPart_of_isName hname hb (getLast?_parts_ne_of_find? h), fun m => ?_,
    fun p v hd hkind => ?_, fun groups hgroups hgroup name' hname' =>
      find?_extend_group h hgroups hgroup hname hname'⟩
  · rw [find?_extend_of_isName h hname, Node.named?_eq_some_iff]
  · rw [find?_extend_of_isName h hname, Node.named?, hd]
    simp [Declaration.groups?, Declaration.parameters?, Value.asObject?_eq_none hkind]

def listening : Artifact where
  globalElements := [.configuration {
    refName := some "c"
    groups :=
      [.withParameter "port" (.simple "80") (.new "tls"),
        .withParameter "host" (.simple "first") (.new "port"),
        .withParameter "host" (.simple "second") (.new "port")] }]

theorem find?_extend_name_listening :
    IsName "port" ∧
      (∃ b', Builder.addPart ⟨some "c", []⟩ "port" = .ok b' ∧
        b'.build = .ok ⟨"c", ["port"]⟩) ∧
      listening.find? ⟨"c", ["port"]⟩ = some ⟨[.group 1, .element 0],
        .group (.withParameter "host" (.simple "first") (.new "port"))⟩ ∧
      (listening.find? ⟨"c", ["port", "host"]⟩).map (·.declaration) =
        some (.parameter "host" (.simple "first")) := by
  obtain ⟨hne, hclean⟩ := checkText_eq_ok_iff.1 (show checkText .part "port" = .ok () from rfl)
  have hport : IsName "port" :=
    ⟨hne, hclean, not_isIndex_of_mem (c := 'p') (by decide) (by decide), by decide⟩
  obtain ⟨hne, hclean⟩ := checkText_eq_ok_iff.1 (show checkText .part "host" = .ok () from rfl)
  have hhost : IsName "host" :=
    ⟨hne, hclean, not_isIndex_of_mem (c := 'h') (by decide) (by decide), by decide⟩
  obtain ⟨hbuild, hnames, -, hbelow⟩ :=
    find?_extend_name (a := listening) (l := ⟨"c", []⟩) rfl hport
  refine ⟨hport, hbuild _ rfl, (hnames _).2 ⟨_, _, ?_, rfl⟩,
    hbelow _ rfl ⟨_, .tail _ (.head _), rfl⟩ "host" hhost⟩
  refine @Declaration.Names.group _ _ [_] _ _ rfl rfl ?_
  simp [ParameterGroup.withParameter, ParameterGroup.new]

end Artifact

end FlowArtifact
