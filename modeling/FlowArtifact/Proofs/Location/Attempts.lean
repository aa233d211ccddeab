import FlowArtifact.Proofs.Location.Grammar
import FlowArtifact.Proofs.Location.Written

/-!
# What a builder of locations holds

Operations are carried out one after another, and one that fails leaves the builder
as it was.  Those that succeed are a run of their own, so the builder keeps the
rules of every run; and it holds what they say and nothing else: the one name that
was set and, in order, the parts.
-/

namespace FlowArtifact.Location.Builder

def Call.name? : Call → Option String
  | .globalName name => some name
  | _ => none

def Call.text? : Call → Option String
  | .globalName _ => none
  | .part text => some text
  | .token t => some t.text
  | .index n => some (toString n)

/-- Carries out operations one after another; one that fails leaves the builder as it was.  Also
gives the operations that succeeded. -/
def attempt (b : Builder) : List Call → Builder × List Call
  | [] => (b, [])
  | call :: calls =>
    match b.apply call with
    | .ok b' => ((b'.attempt calls).1, call :: (b'.attempt calls).2)
    | .error _ => b.attempt calls

/-- The operations that succeeded are a run without failures. -/
theorem run_attempt (b : Builder) (calls : List Call) :
    b.run (b.attempt calls).2 = .ok (b.attempt calls).1 := by
  induction calls generalizing b with
  | nil => rfl
  | cons call calls ih =>
      rw [attempt]
      cases hcall : b.apply call with
      | ok b' =>
          rw [run, List.foldlM_cons, hcall, ok_bind]
          exact ih b'
      | error e => exact ih b

/-- An operation that succeeds puts into the builder what it says. -/
theorem apply_records {b b' : Builder} {call : Call} (hb : b.Sound) (h : b.apply call = .ok b') :
    b'.globalName.toList = b.globalName.toList ++ call.name?.toList ∧
      b'.path = call.text?.toList ++ b.path := by
  cases call with
  | globalName name =>
      cases hname : b.globalName with
      | some current => simp [apply, setGlobalName, hname] at h
      | none =>
          simp only [apply, setGlobalName, hname, bind_eq_ok_iff, pure_eq_ok] at h
          obtain ⟨_, _, hb'⟩ := h
          cases hb'
          exact ⟨rfl, (hb.anchored hname).symm⟩
  | part text =>
      obtain ⟨-, -, -, rfl⟩ := (addPart_eq_ok_iff b b' text).1 h
      exact ⟨by simp [Call.name?], rfl⟩
  | token t =>
      obtain ⟨-, rfl⟩ := (addToken_eq_ok_iff b b' t).1 h
      exact ⟨by simp [Call.name?], rfl⟩
  | index n =>
      obtain ⟨-, -, rfl⟩ := (addIndex_eq_ok_iff b b' n).1 h
      exact ⟨by simp [Call.name?], rfl⟩

theorem run_records {b b' : Builder} {calls : List Call} (hb : b.Sound)
    (h : b.run calls = .ok b') :
    b'.globalName.toList = b.globalName.toList ++ calls.filterMap Call.name? ∧
      b'.path.reverse = b.path.reverse ++ calls.filterMap Call.text? := by
  induction calls generalizing b with
  | nil =>
      cases h
      simp
  | cons call calls ih =>
      rw [run, List.foldlM_cons] at h
      obtain ⟨c, hc, hrest⟩ := bind_eq_ok_iff.1 h
      obtain ⟨hname, hpath⟩ := apply_records hb hc
      obtain ⟨hnames, hparts⟩ := ih (sound_apply hb hc) hrest
      constructor
      · rw [hnames, hname, List.append_assoc]
        cases hcall : call.name? <;> simp [hcall]
      · rw [hparts, hpath, List.reverse_append, List.append_assoc]
        cases hcall : call.text? <;> simp [hcall]

/-- What a builder holds after any operations, from the empty one. -/
theorem attempt_records (calls : List Call) :
    (empty.attempt calls).1.globalName.toList = (empty.attempt calls).2.filterMap Call.name? ∧
      (empty.attempt calls).1.path.reverse = (empty.attempt calls).2.filterMap Call.text? := by
  simpa [empty] using run_records sound_empty (run_attempt empty calls)

theorem sound_attempt (calls : List Call) : (empty.attempt calls).1.Sound :=
  sound_run sound_empty (run_attempt empty calls)

/-- An index is appended just as its decimal text is. -/
theorem addIndex_eq_addPart {b : Builder} (h : b.globalName.isSome) (n : Nat) :
    b.addIndex n = b.addPart (toString n) := by
  have hindex : String.ofList (digitChars n) = toString n := rfl
  have hnumeric : isNumeric (toString n) = true := isNumeric_digitChars n
  obtain ⟨name, hname⟩ := Option.isSome_iff_exists.1 h
  generalize toString n = part at hindex hnumeric ⊢
  have htext : checkText .part part = .ok () := checkText_of_isNumeric hnumeric
  simp only [addIndex, addPart, requireGlobalName, hname, htext, hindex, ok_bind, checkNext]
  cases b.path with
  | nil => rfl
  | cons last rest => by_cases hlast : isNumeric last = true <;> simp [hnumeric, hlast]

theorem build_eq_error_iff (b : Builder) (e : Error) :
    b.build = .error e ↔ b.globalName = none ∧ e = .missingGlobalName .building := by
  unfold build requireGlobalName
  cases b.globalName with
  | none => simp [eq_comm]
  | some name => simp

theorem mem_names_iff {calls : List Call} {name : String} :
    name ∈ calls.filterMap Call.name? ↔ .globalName name ∈ calls := by
  rw [List.mem_filterMap]
  constructor
  · rintro ⟨call, hcall, hname⟩
    cases call with
    | globalName text =>
        cases hname
        exact hcall
    | _ => cases hname
  · exact fun hcall => ⟨_, hcall, rfl⟩

end FlowArtifact.Location.Builder

namespace FlowArtifact.Location

open Builder (empty Call)

/-- After any operations, failures among them, the builder makes a location if a global name was
set, which happens once at most.  The location has this name and the parts of the operations that
succeeded, in order; none is empty or holds a reserved character, and no number stands behind
another.  An index is appended just as its decimal text is. -/
theorem build_attempt (calls : List Call) :
    ((∃ e, (empty.attempt calls).1.build = .error e) ↔
      ∀ name, .globalName name ∉ (empty.attempt calls).2) ∧
    ((empty.attempt calls).2.filterMap Call.name?).length ≤ 1 ∧
    (∀ name, .globalName name ∈ (empty.attempt calls).2 →
      ∃ l, (empty.attempt calls).1.build = .ok l ∧ l.globalName = name ∧
        l.parts = (empty.attempt calls).2.filterMap Call.text? ∧
        (∀ part ∈ l.parts, part ≠ "" ∧ ∀ c ∈ part.toList, c ∉ ['/', '[', ']', '{', '}', '#']) ∧
        l.parts.IsChain fun last part => ¬(IsIndex last ∧ IsIndex part)) ∧
    ∀ (b : Builder) (n : Nat), b.globalName.isSome → b.addIndex n = b.addPart (toString n) := by
  obtain ⟨hnames, hparts⟩ := Builder.attempt_records calls
  have hsound := Builder.sound_attempt calls
  have hname (name : String) : .globalName name ∈ (empty.attempt calls).2 ↔
      (empty.attempt calls).1.globalName = some name := by
    rw [← Builder.mem_names_iff, ← hnames, Option.mem_toList]
  generalize (empty.attempt calls).1 = b at *
  refine ⟨?_, ?_, fun name hcall => ?_, fun b n h => Builder.addIndex_eq_addPart h n⟩
  · simp only [hname, Builder.build_eq_error_iff, exists_and_left, exists_eq, and_true]
    exact Option.eq_none_iff_forall_ne_some
  · rw [← hnames]
    exact Option.length_toList_le
  · refine ⟨⟨name, b.path.reverse⟩, ?_, rfl, hparts, fun part hpart => ?_, ?_⟩
    · rw [Builder.build_eq_ok_iff, List.reverse_reverse]
      exact ⟨(hname name).1 hcall, rfl⟩
    · exact checkText_eq_ok_iff.1 (hsound.texts part (List.mem_reverse.1 hpart))
    · have hapart : b.path.reverse.IsChain Apart := List.isChain_reverse.2 hsound.apart
      refine hapart.imp fun last part h => ?_
      rw [← isNumeric_iff_isIndex, ← isNumeric_iff_isIndex, and_comm]
      exact h

end FlowArtifact.Location
