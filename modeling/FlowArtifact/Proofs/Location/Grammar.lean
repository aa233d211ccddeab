import FlowArtifact.Error
import FlowArtifact.Proofs.Location.Runs

/-!
# The grammar of written locations

A text is a location exactly when the pieces between its separators keep the
rules of `Grammatical`.  The rules speak of one piece, or of a piece and the one
before it, and say nothing of separators: no piece holds one.  The location of
such a text has these pieces for its name and parts, so it is written as the text
again.
-/

namespace FlowArtifact.Text

theorem separator_notMem_cut (separator : Char) (text : List Char) :
    separator ∉ (cut separator text).1 ∧ ∀ part ∈ (cut separator text).2, separator ∉ part := by
  induction text with
  | nil => simp [cut]
  | cons c rest ih =>
      rw [cut]
      by_cases h : c = separator
      · simpa [h] using ih
      · simpa [h, Ne.symm h] using ih

end FlowArtifact.Text

namespace FlowArtifact.Location

def IsIndex (part : String) : Prop := part ≠ "" ∧ ∀ c ∈ part.toList, '0' ≤ c ∧ c ≤ '9'

/-- A text, cut at its separators, that is a location. -/
structure Grammatical (name : String) (parts : List String) : Prop where
  global : (∃ inner, inner ≠ [] ∧ name.toList = ['$', '{'] ++ inner ++ ['}']) ∨
    (name ≠ "" ∧ ∀ c ∈ name.toList, c ∉ ['[', ']', '{', '}', '#'])
  texts : ∀ part ∈ parts, part ≠ "" ∧ ∀ c ∈ part.toList, c ∉ ['[', ']', '{', '}', '#']
  apart : parts.IsChain fun last part => ¬(IsIndex last ∧ IsIndex part)
  numbered : parts.IsChain fun last part => last = "processors" → IsIndex part

theorem isNumeric_iff_isIndex {part : String} : isNumeric part = true ↔ IsIndex part := by
  have hdigit (c : Char) : c.isDigit = true ↔ '0' ≤ c ∧ c ≤ '9' := by
    simp only [Char.isDigit, Bool.and_eq_true, decide_eq_true_eq]
    exact Iff.rfl
  simp only [isNumeric, IsIndex, Bool.and_eq_true, decide_eq_true_eq, List.all_eq_true, hdigit]

theorem isChain_mayFollow_iff_isIndex {parts : List String} :
    parts.IsChain MayFollow ↔
      (parts.IsChain fun last part => ¬(IsIndex last ∧ IsIndex part)) ∧
        parts.IsChain fun last part => last = "processors" → IsIndex part := by
  have hapart : Apart = fun last part => ¬(IsIndex last ∧ IsIndex part) := by
    funext last part
    rw [Apart, isNumeric_iff_isIndex, isNumeric_iff_isIndex, and_comm]
  rw [isChain_mayFollow_iff, hapart, and_comm]
  simp only [Numbered, isNumeric_iff_isIndex, Token.text]

/-- The grammar in terms of the checks that are made on the pieces. -/
theorem grammatical_iff {name : String} {parts : List String} (hname : '/' ∉ name.toList)
    (hparts : ∀ part ∈ parts, '/' ∉ part.toList) :
    Grammatical name parts ↔ checkGlobalName name = .ok () ∧
      (∀ part ∈ parts, checkText .part part = .ok ()) ∧ parts.IsChain MayFollow := by
  have hclean {text : String} (h : '/' ∉ text.toList) :
      (∀ c ∈ text.toList, c ∉ ['/', '[', ']', '{', '}', '#']) ↔
        ∀ c ∈ text.toList, c ∉ ['[', ']', '{', '}', '#'] := by
    refine forall₂_congr fun c hc => ?_
    have hne : c ≠ '/' := by
      rintro rfl
      exact h hc
    rw [List.mem_cons, or_iff_right hne]
  have hglobal : checkGlobalName name = .ok () ↔
      (∃ inner, inner ≠ [] ∧ name.toList = ['$', '{'] ++ inner ++ ['}']) ∨
        (name ≠ "" ∧ ∀ c ∈ name.toList, c ∉ ['[', ']', '{', '}', '#']) := by
    rw [checkGlobalName_eq_ok_iff, IsGlobalName, hclean hname]
    apply or_congr_left
    constructor
    · rintro ⟨inner, hne, -, hinner⟩
      exact ⟨inner, hne, hinner⟩
    · rintro ⟨inner, hne, hinner⟩
      refine ⟨inner, hne, fun hmem => hname ?_, hinner⟩
      rw [hinner]
      simp [hmem]
  have htexts : (∀ part ∈ parts, checkText .part part = .ok ()) ↔
      ∀ part ∈ parts, part ≠ "" ∧ ∀ c ∈ part.toList, c ∉ ['[', ']', '{', '}', '#'] := by
    refine forall₂_congr fun part hpart => ?_
    rw [checkText_eq_ok_iff, hclean (hparts part hpart)]
  rw [hglobal, htexts, isChain_mayFollow_iff_isIndex]
  exact ⟨fun ⟨h, hp, ha, hn⟩ => ⟨h, hp, ha, hn⟩, fun ⟨h, hp, ha, hn⟩ => ⟨h, hp, ha, hn⟩⟩

theorem text_split (text : String) :
    Location.text ⟨(Text.split separator text).1, (Text.split separator text).2⟩ = text := by
  have hglue := Text.glue_cut separator text.toList
  simpa [Location.text, Text.split, Function.comp_def] using congrArg String.ofList hglue

theorem separator_notMem_split (text : String) :
    separator ∉ (Text.split separator text).1.toList ∧
      ∀ part ∈ (Text.split separator text).2, separator ∉ part.toList := by
  simpa [Text.split] using Text.separator_notMem_cut separator text.toList

/-- A text is parsed if its pieces pass the checks, and to the location of these pieces. -/
theorem parse_eq_ok_iff {text : String} {l : Location} :
    parse text = .ok l ↔
      (checkGlobalName (Text.split separator text).1 = .ok () ∧
        (∀ part ∈ (Text.split separator text).2, checkText .part part = .ok ()) ∧
        (Text.split separator text).2.IsChain MayFollow) ∧
      l = ⟨(Text.split separator text).1, (Text.split separator text).2⟩ := by
  unfold parse Builder.ofText
  generalize Text.split separator text = pieces
  obtain ⟨name, parts⟩ := pieces
  have hreplay (b : Builder) := Builder.foldlM_addPart_eq_ok_iff parts ⟨some name, []⟩ b rfl
  simp only [Builder.setGlobalName, Builder.empty, bind_eq_ok_iff, pure_eq_ok, Except.ok.injEq]
  constructor
  · rintro ⟨b, ⟨_, ⟨_, hname, rfl⟩, hfold⟩, hbuild⟩
    obtain ⟨htexts, hchain, rfl⟩ := (hreplay b).1 hfold
    cases hbuild
    exact ⟨⟨hname, htexts, by simpa using hchain⟩, by simp⟩
  · rintro ⟨⟨hname, htexts, hchain⟩, rfl⟩
    refine ⟨_, ⟨_, ⟨(), hname, rfl⟩, (hreplay _).2 ⟨htexts, by simpa using hchain, rfl⟩⟩, ?_⟩
    simp [Builder.build, Builder.requireGlobalName]

/-- The texts of the grammar are parsed, each to the location of its pieces, which is written as the
text again; every other text is refused for a breach of the rules. -/
theorem parse_accepts_grammar (text : String) :
    ((∃ l, parse text = .ok l) ↔
      Grammatical (Text.split '/' text).1 (Text.split '/' text).2) ∧
    (∀ l, parse text = .ok l → l.globalName = (Text.split '/' text).1 ∧
      l.parts = (Text.split '/' text).2 ∧ l.text = text) ∧
    ∀ e, parse text = .error e → (FlowArtifact.Error.location e).isStructural = true := by
  rw [show '/' = separator from rfl]
  obtain ⟨hname, hparts⟩ := separator_notMem_split text
  refine ⟨?_, ?_, fun _ _ => rfl⟩
  · rw [grammatical_iff hname hparts]
    simp only [parse_eq_ok_iff]
    exact ⟨fun ⟨_, h, _⟩ => h, fun h => ⟨_, h, rfl⟩⟩
  · intro l hl
    obtain ⟨-, rfl⟩ := parse_eq_ok_iff.1 hl
    exact ⟨rfl, rfl, text_split text⟩

end FlowArtifact.Location
