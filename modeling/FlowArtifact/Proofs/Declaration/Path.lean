import FlowArtifact.Declaration.Node
import FlowArtifact.Proofs.Location.Written

/-!
# Paths of steps

A step to a connection, a message source, a processor or an error handler is
written with reserved words and indexes.  The parts of such steps determine the
steps, keep the rules for what may follow what, and are grouped into the steps
again, unless an index is too large: it is then taken for a name.
-/

namespace FlowArtifact

namespace Location

theorem decimalFrom_eq (acc : Nat) (digits : List Char) :
    decimalFrom acc digits = Nat.ofDigitChars 10 digits acc := by
  induction digits generalizing acc with
  | nil => exact (Nat.ofDigitChars_nil).symm
  | cons c rest ih =>
      show decimalFrom (acc * 10 + (c.toNat - 48)) rest = _
      rw [ih, Nat.ofDigitChars_cons, Nat.mul_comm]
      rfl

theorem decimal_digitChars (n : Nat) : decimal (digitChars n) = n := by
  rw [decimal, decimalFrom_eq]
  exact Nat.ofDigitChars_ten_toDigits

theorem index_inj {m n : Nat} :
    String.ofList (digitChars m) = String.ofList (digitChars n) ↔ m = n := by
  refine ⟨fun h => ?_, fun h => h ▸ rfl⟩
  have hchars : digitChars m = digitChars n := by simpa using congrArg String.toList h
  rw [← decimal_digitChars m, hchars, decimal_digitChars]

namespace Segment

@[simp] theorem classify_token (t : Token) : classify t.text = .token t := by
  cases t <;> rfl

/-- A text of digits is an index or, if its number is too large, a name. -/
theorem classify_of_isNumeric {part : String} (h : isNumeric part = true) : classify part =
    if decimal part.toList < indexLimit then .index (decimal part.toList) else .name part := by
  have hne (t : Token) : part ≠ t.text := by
    intro heq
    rw [heq, isNumeric_token] at h
    cases h
  unfold classify
  rw [if_neg (hne _), if_neg (hne _), if_neg (hne _), if_neg (hne _)]
  simp only [h, true_and]

@[simp] theorem classify_index (n : Nat) : classify (String.ofList (digitChars n)) =
    if n < indexLimit then .index n else .name (String.ofList (digitChars n)) := by
  rw [classify_of_isNumeric (isNumeric_digitChars n), String.toList_ofList, decimal_digitChars]

end Segment

end Location

namespace Step

open Location

def parts : Step → List String
  | connection => [Token.connection.text]
  | source => [Token.source.text]
  | processor i => [Token.processors.text, String.ofList (digitChars i)]
  | errorHandler i => [Token.errorHandler.text, String.ofList (digitChars i)]
  | name text => [text]

/-- The step is written with reserved words and indexes. -/
def IsStructural : Step → Prop
  | name _ => False
  | connection | source | processor _ | errorHandler _ => True

/-- The index of the step, if it has one, is not too large. -/
def InRange : Step → Prop
  | processor i | errorHandler i => i < indexLimit
  | connection | source | name _ => True

instance : DecidablePred IsStructural
  | name _ => .isFalse id
  | connection | source | processor _ | errorHandler _ => .isTrue trivial

/-- Structural steps are told apart by their parts, whatever comes behind. -/
theorem parts_append_inj {s s' : Step} (hs : s.IsStructural) (hs' : s'.IsStructural)
    {l l' : List String} (h : s.parts ++ l = s'.parts ++ l') : s = s' ∧ l = l' := by
  cases s <;> cases s' <;> simp_all [IsStructural, parts, Token.text, index_inj]

theorem parts_injective {steps steps' : List Step} (hs : ∀ s ∈ steps, s.IsStructural)
    (hs' : ∀ s ∈ steps', s.IsStructural) (h : steps.flatMap parts = steps'.flatMap parts) :
    steps = steps' := by
  have hne (s : Step) : s.parts ≠ [] := by cases s <;> simp [parts]
  induction steps generalizing steps' with
  | nil =>
      cases steps' with
      | nil => rfl
      | cons s' rest' => simp [hne] at h
  | cons s rest ih =>
      cases steps' with
      | nil => simp [hne] at h
      | cons s' rest' =>
          obtain ⟨hstep, hsteps⟩ := List.forall_mem_cons.1 hs
          obtain ⟨hstep', hsteps'⟩ := List.forall_mem_cons.1 hs'
          obtain ⟨rfl, hrest⟩ := parts_append_inj hstep hstep' h
          rw [ih hsteps hsteps' hrest]

theorem ofSegments?_append_eq_some_iff {s : Step} (hs : s.IsStructural) {segments : List Segment}
    {steps : List Step} :
    ofSegments? (s.parts.map Segment.classify ++ segments) = some steps ↔
      s.InRange ∧ ∃ rest, ofSegments? segments = some rest ∧ s :: rest = steps := by
  cases s with
  | connection => simp [parts, ofSegments?, InRange]
  | source => simp [parts, ofSegments?, InRange]
  | processor i => by_cases hi : i < indexLimit <;> simp [parts, ofSegments?, InRange, hi]
  | errorHandler i => by_cases hi : i < indexLimit <;> simp [parts, ofSegments?, InRange, hi]
  | name text => exact hs.elim

/-- The parts of structural steps are grouped into these steps if no index is too large. -/
theorem ofSegments?_parts_eq_some_iff {steps steps' : List Step}
    (hs : ∀ s ∈ steps, s.IsStructural) :
    ofSegments? ((steps.flatMap parts).map Segment.classify) = some steps' ↔
      (∀ s ∈ steps, s.InRange) ∧ steps = steps' := by
  induction steps generalizing steps' with
  | nil => simp [ofSegments?]
  | cons s rest ih =>
      obtain ⟨hstep, hrest⟩ := List.forall_mem_cons.1 hs
      rw [List.flatMap_cons, List.map_append, ofSegments?_append_eq_some_iff hstep,
        List.forall_mem_cons]
      simp only [ih hrest]
      constructor
      · rintro ⟨hrange, _, ⟨hranges, rfl⟩, rfl⟩
        exact ⟨⟨hrange, hranges⟩, rfl⟩
      · rintro ⟨⟨hrange, hranges⟩, rfl⟩
        exact ⟨hrange, rest, ⟨hranges, rfl⟩, rfl⟩

/-- Whatever follows `processors` in the parts of structural steps is an index. -/
theorem numbered_parts {steps : List Step} (hs : ∀ s ∈ steps, s.IsStructural) :
    Numbered (steps.flatMap parts) := by
  have hbehind (last : String) (hlast : last ≠ Token.processors.text) :
      Numbered (last :: steps.flatMap parts) := by
    unfold Numbered
    induction steps generalizing last with
    | nil => simp
    | cons s rest ih =>
        obtain ⟨hstep, hrest⟩ := List.forall_mem_cons.1 hs
        have hindex (i : Nat) : String.ofList (digitChars i) ≠ Token.processors.text := by
          intro heq
          have hnumeric := isNumeric_digitChars i
          rw [heq, isNumeric_token] at hnumeric
          cases hnumeric
        cases s with
        | connection => simpa [parts, hlast] using ih hrest _ (by decide)
        | source => simpa [parts, hlast] using ih hrest _ (by decide)
        | processor i =>
            simpa [parts, hlast, isNumeric_digitChars] using ih hrest _ (hindex i)
        | errorHandler i =>
            have hword : Token.errorHandler.text ≠ Token.processors.text := by decide
            simpa [parts, hlast, hword, isNumeric_digitChars] using ih hrest _ (hindex i)
        | name text => exact hstep.elim
  exact (hbehind Token.source.text (by decide)).tail

def calls : Step → List Builder.Call
  | connection => [.token .connection]
  | source => [.token .source]
  | processor i => [.token .processors, .index i]
  | errorHandler i => [.token .errorHandler, .index i]
  | name text => [.part text]

end Step

namespace Location

def extend (l : Location) (s : Step) : Location := { l with parts := l.parts ++ s.parts }

def along (l : Location) (steps : List Step) : Location :=
  { l with parts := l.parts ++ steps.flatMap Step.parts }

@[simp] theorem along_nil (l : Location) : l.along [] = l := by
  simp [along]

theorem along_cons (l : Location) (s : Step) (rest : List Step) :
    l.along (s :: rest) = (l.extend s).along rest := by
  simp [along, extend, List.append_assoc]

/-- Locations along different structural steps are different. -/
theorem along_injective {l : Location} {steps steps' : List Step}
    (hs : ∀ s ∈ steps, s.IsStructural) (hs' : ∀ s ∈ steps', s.IsStructural)
    (h : l.along steps = l.along steps') : steps = steps' := by
  apply Step.parts_injective hs hs'
  simpa [along] using h

namespace Builder

theorem run_append (b : Builder) (calls calls' : List Call) :
    b.run (calls ++ calls') = (b.run calls >>= fun b' => b'.run calls') :=
  List.foldlM_append

section
variable {b : Builder} {l : Location} (hb : b.build = .ok l)
include hb

theorem addToken_of_build (t : Token) : b.addToken t = .ok (b.push t.text) := by
  obtain ⟨hname, -⟩ := (build_eq_ok_iff b l).1 hb
  exact (addToken_eq_ok_iff _ _ t).2 ⟨by simp [hname], rfl⟩

theorem addIndex_push_token (t : Token) (i : Nat) : (b.push t.text).addIndex i =
    .ok ((b.push t.text).push (String.ofList (digitChars i))) := by
  obtain ⟨hname, -⟩ := (build_eq_ok_iff b l).1 hb
  exact (addIndex_eq_ok_iff _ _ i).2 ⟨by simp [hname], by simp [isNumeric_token], rfl⟩

theorem build_push (part : String) :
    (b.push part).build = .ok { l with parts := l.parts ++ [part] } := by
  obtain ⟨hname, hpath⟩ := (build_eq_ok_iff b l).1 hb
  exact (build_eq_ok_iff _ _).2 ⟨hname, by simp [hpath]⟩

theorem build_push_push (part part' : String) :
    ((b.push part).push part').build = .ok { l with parts := l.parts ++ [part, part'] } := by
  have hpush := build_push (build_push hb part) part'
  rwa [List.append_assoc] at hpush

/-- The builder appends the parts of a structural step, and none of its operations fails. -/
theorem run_calls {s : Step} (hs : s.IsStructural) :
    ∃ b', b.run s.calls = .ok b' ∧ b'.build = .ok (l.extend s) := by
  have htoken := addToken_of_build hb
  have hindex := addIndex_push_token hb
  cases s with
  | connection => exact ⟨_, by simp [Step.calls, run, apply, htoken], build_push hb _⟩
  | source => exact ⟨_, by simp [Step.calls, run, apply, htoken], build_push hb _⟩
  | processor i =>
      exact ⟨_, by simp [Step.calls, run, apply, htoken, hindex], build_push_push hb _ _⟩
  | errorHandler i =>
      exact ⟨_, by simp [Step.calls, run, apply, htoken, hindex], build_push_push hb _ _⟩
  | name text => exact hs.elim

end

theorem run_flatMap_calls {b : Builder} {l : Location} {steps : List Step}
    (hs : ∀ s ∈ steps, s.IsStructural) (hb : b.build = .ok l) :
    ∃ b', b.run (steps.flatMap Step.calls) = .ok b' ∧ b'.build = .ok (l.along steps) := by
  induction steps generalizing b l with
  | nil => exact ⟨b, rfl, by simpa using hb⟩
  | cons s rest ih =>
      obtain ⟨hstep, hrest⟩ := List.forall_mem_cons.1 hs
      obtain ⟨c, hc, hextend⟩ := run_calls hb hstep
      obtain ⟨b', hb', halong⟩ := ih hrest hextend
      refine ⟨b', ?_, by rw [along_cons, halong]⟩
      rw [List.flatMap_cons, run_append, hc, ok_bind, hb']

/-- What the builder made under a global name is parsed if its parts are numbered. -/
theorem Sound.parse_text {b : Builder} {l : Location} (h : b.Sound) (hb : b.build = .ok l)
    (hnumbered : Numbered l.parts) : parse l.text = .ok l := by
  obtain ⟨hname, hpath⟩ := (build_eq_ok_iff b l).1 hb
  have htexts : ∀ part ∈ l.parts, checkText .part part = .ok () := fun part hp =>
    h.texts part (by simpa [hpath] using hp)
  have hapart : l.parts.IsChain Apart := by
    have hchain := h.apart
    rwa [hpath, List.isChain_reverse] at hchain
  rw [parse_text_eq_ok_iff (h.named _ hname) htexts, isChain_mayFollow_iff]
  exact ⟨hnumbered, hapart⟩

end Builder

/-- The location of structural steps below a global element is one that the builder makes, and it is
read back from its text. -/
theorem parse_along {name : String} (hname : checkGlobalName name = .ok ()) {steps : List Step}
    (hs : ∀ s ∈ steps, s.IsStructural) :
    (∃ b, Builder.empty.run (.globalName name :: steps.flatMap Step.calls) = .ok b ∧
      b.build = .ok (along ⟨name, []⟩ steps)) ∧
    parse (along ⟨name, []⟩ steps).text = .ok (along ⟨name, []⟩ steps) := by
  have hglobal : Builder.empty.setGlobalName name = .ok ⟨some name, []⟩ := by
    simp [Builder.setGlobalName, Builder.empty, hname]
  obtain ⟨b, hrest, hbuild⟩ := Builder.run_flatMap_calls (b := ⟨some name, []⟩)
    (l := ⟨name, []⟩) hs rfl
  have hrun : Builder.empty.run (.globalName name :: steps.flatMap Step.calls) = .ok b := by
    rw [Builder.run, List.foldlM_cons, Builder.apply, hglobal, ok_bind]
    exact hrest
  refine ⟨⟨b, hrun, hbuild⟩, (Builder.sound_run Builder.sound_empty hrun).parse_text hbuild ?_⟩
  simpa [along] using Step.numbered_parts hs

end Location

end FlowArtifact
