import FlowArtifact.Declaration.Builder
import FlowArtifact.Proofs.Declaration.Validity
import FlowArtifact.Proofs.NameMap

/-!
# Building artifacts

The builder of an artifact checks an element before it appends it, so the elements
of an artifact that was built are legal and have different names.  It does not
check the attributes of the artifact itself: these hold all custom parameters and,
under each metadata key, the last value that was given for it.  For artifacts with
nothing but elements the builder and the checks agree, element by element.
-/

namespace FlowArtifact.Artifact

inductive Call where
  | name (name : String)
  | metadata (key : String) (value : Datum)
  | custom (name : String) (value : Value)
  | globalElement (e : GlobalElement)

namespace Call

def apply (a : Artifact) : Call → Except Error Artifact
  | name text => .ok (a.withName text)
  | metadata key value => .ok (withMetadata key value a)
  | custom text value => .ok (withCustom text value a)
  | globalElement e => a.withGlobalElement e

def datum? (key : String) : Call → Option Datum
  | metadata key' value => if key' = key then some value else none
  | _ => none

def parameter? : Call → Option Parameter
  | custom text value => some ⟨text, value⟩
  | _ => none

def lastDatum? (key : String) (calls : List Call) : Option Datum :=
  calls.reverse.findSome? (datum? key)

theorem lastDatum?_append (key : String) (calls : List Call) (call : Call) :
    lastDatum? key (calls ++ [call]) = (datum? key call).or (lastDatum? key calls) := by
  unfold lastDatum?
  rw [List.reverse_append, List.reverse_singleton, List.singleton_append, List.findSome?_cons]
  cases datum? key call <;> rfl

/-- What calls leave in the attributes of an artifact is not nested too deep. -/
structure Shallow (calls : List Call) : Prop where
  metadata : ∀ key value, lastDatum? key calls = some value → value.depth ≤ maxValueDepth
  custom : ∀ text value, custom text value ∈ calls → value.depth ≤ maxValueDepth

end Call

def run (calls : List Call) : Except Error Artifact := calls.foldlM Call.apply {}

theorem run_append (calls : List Call) (call : Call) :
    run (calls ++ [call]) = (run calls >>= fun a => call.apply a) := by
  unfold run
  rw [List.foldlM_append]
  congr 1
  funext a
  rw [List.foldlM_cons]
  cases call.apply a <;> rfl

/-! ## Elements -/

structure Enforced (a : Artifact) : Prop where
  elements : ∀ e ∈ a.globalElements, e.Legal
  names : (a.globalElements.filterMap (·.refName)).Nodup

theorem legal_iff_enforced {a : Artifact} : a.Legal ↔ a.Enforced ∧ a.attributes.Shallow :=
  ⟨fun h => ⟨⟨h.elements, h.names⟩, h.attributes⟩, fun h => ⟨h.2, h.1.elements, h.1.names⟩⟩

theorem globalElement?_eq_none_iff {a : Artifact} {name : String} :
    a.globalElement? name = none ↔ name ∉ a.globalElements.filterMap (·.refName) := by
  simp [globalElement?]

theorem nodup_names_append_iff {es : List GlobalElement} {e : GlobalElement} :
    ((es ++ [e]).filterMap (·.refName)).Nodup ↔ (es.filterMap (·.refName)).Nodup ∧
      ∀ name, e.refName = some name → name ∉ es.filterMap (·.refName) := by
  rw [List.filterMap_append]
  cases hname : e.refName with
  | none => simp [hname]
  | some name =>
      have hsingle : [e].filterMap (·.refName) = [name] := by simp [hname]
      rw [hsingle, List.perm_append_comm.nodup_iff, List.singleton_append, List.nodup_cons,
        and_comm]
      simp only [Option.some.injEq, forall_eq']

/-- An element is appended if it is legal and its name is not taken. -/
theorem withGlobalElement_eq_ok_iff {a b : Artifact} {e : GlobalElement} :
    a.withGlobalElement e = .ok b ↔
      e.Legal ∧ (∀ name, e.refName = some name →
        name ∉ a.globalElements.filterMap (·.refName)) ∧
      b = { a with globalElements := a.globalElements ++ [e] } := by
  unfold withGlobalElement
  rw [check_bind_eq_ok_iff, GlobalElement.check_eq_ok_iff]
  apply and_congr_right
  intro _
  cases e.refName with
  | none => simp [eq_comm]
  | some name =>
      cases hname : a.globalElement? name with
      | none =>
          have hfree := globalElement?_eq_none_iff.1 hname
          simp only [hname, Option.isSome_none, Bool.false_eq_true, if_false, pure_eq_ok,
            Except.ok.injEq, Option.some.injEq, forall_eq', hfree, not_false_eq_true, true_and]
          exact eq_comm
      | some found =>
          have htaken : ¬name ∉ a.globalElements.filterMap (·.refName) := by
            intro hfree
            rw [globalElement?_eq_none_iff.2 hfree] at hname
            cases hname
          simp only [hname, Option.isSome_some, if_true, throw_eq_error, reduceCtorEq,
            Option.some.injEq, forall_eq', htaken, false_and]

theorem enforced_apply {a b : Artifact} {call : Call} (h : a.Enforced)
    (hcall : call.apply a = .ok b) : b.Enforced := by
  cases call with
  | name name =>
      cases hcall
      exact ⟨h.elements, h.names⟩
  | metadata key value =>
      cases hcall
      exact ⟨h.elements, h.names⟩
  | custom name value =>
      cases hcall
      exact ⟨h.elements, h.names⟩
  | globalElement e =>
      rw [Call.apply, withGlobalElement_eq_ok_iff] at hcall
      obtain ⟨he, hfree, rfl⟩ := hcall
      constructor
      · rw [List.forall_mem_append, List.forall_mem_singleton]
        exact ⟨h.elements, he⟩
      · exact nodup_names_append_iff.2 ⟨h.names, hfree⟩

theorem enforced_run {calls : List Call} {a : Artifact} (h : run calls = .ok a) : a.Enforced := by
  induction calls using List.reverseRecOn generalizing a with
  | nil =>
      cases h
      exact ⟨by simp, by simp⟩
  | append_singleton calls call ih =>
      rw [run_append, bind_eq_ok_iff] at h
      obtain ⟨b, hb, hcall⟩ := h
      exact enforced_apply (ih hb) hcall

/-! ## Attributes -/

theorem mem_metadata_apply {a b : Artifact} {call : Call} (h : call.apply a = .ok b)
    {key : String} {value : Datum} : (key, value) ∈ b.attributes.metadata.entries ↔
      call.datum? key = some value ∨
        call.datum? key = none ∧ (key, value) ∈ a.attributes.metadata.entries := by
  cases call with
  | name text =>
      cases h
      simp [Call.datum?, withName]
  | metadata key' value' =>
      cases h
      simp only [withMetadata, Attributed.modifyAttributes, NameMap.mem_entries_insert, Call.datum?]
      by_cases hkey : key' = key
      · simp [hkey, eq_comm]
      · simp [hkey, Ne.symm hkey]
  | custom text value' =>
      cases h
      simp [Call.datum?, withCustom, Attributed.modifyAttributes]
  | globalElement e =>
      rw [Call.apply, withGlobalElement_eq_ok_iff] at h
      obtain ⟨-, -, rfl⟩ := h
      simp [Call.datum?]

/-- The metadata of an artifact that was built is what was given last. -/
theorem mem_metadata_run {calls : List Call} {a : Artifact} (h : run calls = .ok a)
    {key : String} {value : Datum} : (key, value) ∈ a.attributes.metadata.entries ↔
      Call.lastDatum? key calls = some value := by
  -- The induction takes calls from the end, where the one that counts is found first.
  induction calls using List.reverseRecOn generalizing a with
  | nil =>
      cases h
      simp [Call.lastDatum?]
  | append_singleton calls call ih =>
      rw [run_append, bind_eq_ok_iff] at h
      obtain ⟨b, hb, hcall⟩ := h
      rw [mem_metadata_apply hcall, ih hb, Call.lastDatum?_append, Option.or_eq_some_iff]

theorem custom_apply {a b : Artifact} {call : Call} (h : call.apply a = .ok b) :
    b.attributes.custom = a.attributes.custom ++ call.parameter?.toList := by
  cases call with
  | globalElement e =>
      rw [Call.apply, withGlobalElement_eq_ok_iff] at h
      obtain ⟨-, -, rfl⟩ := h
      simp [Call.parameter?]
  | _ =>
      cases h
      simp [Call.parameter?, withName, withMetadata, withCustom, Attributed.modifyAttributes]

/-- The custom parameters of an artifact that was built are those that were given. -/
theorem custom_run {calls : List Call} {a : Artifact} (h : run calls = .ok a) :
    a.attributes.custom = calls.filterMap Call.parameter? := by
  induction calls using List.reverseRecOn generalizing a with
  | nil =>
      cases h
      rfl
  | append_singleton calls call ih =>
      rw [run_append, bind_eq_ok_iff] at h
      obtain ⟨b, hb, hcall⟩ := h
      rw [custom_apply hcall, ih hb, List.filterMap_append]
      cases hparameter : call.parameter? <;> simp [hparameter]

theorem mem_parameters_iff {calls : List Call} {p : Parameter} :
    p ∈ calls.filterMap Call.parameter? ↔ Call.custom p.name p.value ∈ calls := by
  rw [List.mem_filterMap]
  constructor
  · rintro ⟨call, hcall, hp⟩
    cases call with
    | custom text value =>
        cases hp
        exact hcall
    | _ => cases hp
  · exact fun hcall => ⟨_, hcall, rfl⟩

theorem shallow_iff_of_run {calls : List Call} {a : Artifact} (h : run calls = .ok a) :
    a.attributes.Shallow ↔ Call.Shallow calls := by
  constructor
  · intro hshallow
    refine ⟨fun key value hlast => ?_, fun text value hcall => ?_⟩
    · exact hshallow.metadata (key, value) ((mem_metadata_run h).2 hlast)
    · apply hshallow.custom ⟨text, value⟩
      rw [custom_run h, mem_parameters_iff]
      exact hcall
  · intro hshallow
    refine ⟨fun e he => ?_, fun p hp => ?_⟩
    · exact hshallow.metadata e.1 e.2 ((mem_metadata_run h).1 he)
    · rw [custom_run h, mem_parameters_iff] at hp
      exact hshallow.custom p.name p.value hp

/-- An artifact that was built passes the checks unless its own attributes are too deep. -/
theorem validate_eq_ok_iff_of_run {calls : List Call} {a : Artifact} (h : run calls = .ok a) :
    a.validate = .ok () ↔ Call.Shallow calls := by
  rw [validate_eq_ok_iff, legal_iff_enforced, shallow_iff_of_run h]
  exact and_iff_right (enforced_run h)

/-! ## Elements one after another -/

def ofElements (es : List GlobalElement) : Artifact where
  globalElements := es

theorem legal_ofElements_append_iff {es : List GlobalElement} {e : GlobalElement} :
    (ofElements (es ++ [e])).Legal ↔ (ofElements es).Legal ∧ e.Legal ∧
      ∀ name, e.refName = some name → name ∉ es.filterMap (·.refName) := by
  have hempty : ({} : Attributes).Shallow := ⟨nofun, nofun⟩
  constructor
  · rintro ⟨-, helements, hnodup⟩
    obtain ⟨hes, he⟩ := List.forall_mem_append.1 helements
    obtain ⟨hnodup, hfree⟩ := nodup_names_append_iff.1 hnodup
    exact ⟨⟨hempty, hes, hnodup⟩, he e List.mem_cons_self, hfree⟩
  · rintro ⟨⟨-, hes, hnodup⟩, he, hfree⟩
    refine ⟨hempty, ?_, nodup_names_append_iff.2 ⟨hnodup, hfree⟩⟩
    exact List.forall_mem_append.2 ⟨hes, List.forall_mem_singleton.2 he⟩

/-- Elements are appended one after another if they make up a legal artifact. -/
theorem run_elements_eq_ok_iff {es : List GlobalElement} {a : Artifact} :
    run (es.map .globalElement) = .ok a ↔ (ofElements es).Legal ∧ a = ofElements es := by
  induction es using List.reverseRecOn generalizing a with
  | nil =>
      have hlegal : (ofElements []).Legal := ⟨⟨nofun, nofun⟩, nofun, List.nodup_nil⟩
      simp only [hlegal, true_and]
      exact ⟨fun h => (Except.ok.inj h).symm, fun h => congrArg Except.ok h.symm⟩
  | append_singleton es e ih =>
      rw [List.map_append, List.map_singleton, run_append, bind_eq_ok_iff,
        legal_ofElements_append_iff]
      simp only [ih, Call.apply, withGlobalElement_eq_ok_iff]
      constructor
      · rintro ⟨_, ⟨hlegal, rfl⟩, he, hfree, rfl⟩
        exact ⟨⟨hlegal, he, hfree⟩, rfl⟩
      · rintro ⟨⟨hlegal, he, hfree⟩, rfl⟩
        exact ⟨ofElements es, ⟨hlegal, rfl⟩, he, hfree, rfl⟩

/-- The builder takes elements one after another if the checks accept the artifact of them, and
builds that artifact.  The first element that it refuses is the first with which the checks fail. -/
theorem run_elements_iff_validate (es : List GlobalElement) :
    (∀ a, run (es.map .globalElement) = .ok a ↔
      (ofElements es).validate = .ok () ∧ a = ofElements es) ∧
    ∀ k, ((∃ a, run ((es.take k).map .globalElement) = .ok a) ∧
        ∃ err, run ((es.take (k + 1)).map .globalElement) = .error err) ↔
      (ofElements (es.take k)).validate = .ok () ∧
        ∃ err, (ofElements (es.take (k + 1))).validate = .error err := by
  have hrun (es : List GlobalElement) (a : Artifact) : run (es.map .globalElement) = .ok a ↔
      (ofElements es).validate = .ok () ∧ a = ofElements es := by
    rw [run_elements_eq_ok_iff, validate_eq_ok_iff]
  have hok (es : List GlobalElement) : (∃ a, run (es.map .globalElement) = .ok a) ↔
      (ofElements es).validate = .ok () := by
    simp [hrun]
  have herror (es : List GlobalElement) : (∃ err, run (es.map .globalElement) = .error err) ↔
      ∃ err, (ofElements es).validate = .error err := by
    have hnot {α : Type} (x : Except Error α) : (∃ err, x = .error err) ↔ ¬∃ a, x = .ok a := by
      cases x <;> simp
    rw [hnot, hnot, hok]
    exact not_congr ⟨fun h => ⟨(), h⟩, fun ⟨_, h⟩ => h⟩
  exact ⟨hrun es, fun k => by rw [hok, herror]⟩

end FlowArtifact.Artifact
