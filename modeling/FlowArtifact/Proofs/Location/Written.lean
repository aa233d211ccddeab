import FlowArtifact.Live.Document
import FlowArtifact.Proofs.Json.Parsing
import FlowArtifact.Proofs.Location.Runs

/-!
# Written locations

The text of a location is cut into its name and parts again, so parsing it
replays these parts.  A location that a builder made may hold a part behind
`processors` that is no number, since the operations for tokens do not look at
the part before; the replay refuses exactly these locations.  In a document a
location is its text, and is read back just as the text is parsed.
-/

namespace FlowArtifact.Location

theorem split_text {l : Location} (hname : separator ∉ l.globalName.toList)
    (hparts : ∀ part ∈ l.parts, separator ∉ part.toList) :
    Text.split separator l.text = (l.globalName, l.parts) := by
  have hcut : Text.cut separator l.text.toList =
      (l.globalName.toList, l.parts.map String.toList) := by
    unfold text
    rw [String.toList_ofList]
    apply Text.cut_glue hname
    simpa using hparts
  simp [Text.split, hcut, Function.comp_def]

/-- Parsing the text of a location replays its parts. -/
theorem parse_text {l : Location} (hname : checkGlobalName l.globalName = .ok ())
    (ht : ∀ part ∈ l.parts, checkText .part part = .ok ()) :
    parse l.text =
      (l.parts.foldlM Builder.addPart { globalName := some l.globalName } >>= Builder.build) := by
  have hsplit := split_text (separator_notMem_of_checkGlobalName hname)
    fun part hp => separator_notMem_of_checkText (ht part hp)
  simp [parse, Builder.ofText, hsplit, Builder.setGlobalName, Builder.empty, hname]

theorem parse_text_eq_ok_iff {l : Location} (hname : checkGlobalName l.globalName = .ok ())
    (ht : ∀ part ∈ l.parts, checkText .part part = .ok ()) :
    parse l.text = .ok l ↔ l.parts.IsChain MayFollow := by
  rw [parse_text hname ht, bind_eq_ok_iff]
  constructor
  · rintro ⟨b, hb, _⟩
    simpa using ((Builder.foldlM_addPart_eq_ok_iff _ _ b rfl).1 hb).2.1
  · intro hchain
    refine ⟨_, (Builder.foldlM_addPart_eq_ok_iff _ _ _ rfl).2 ⟨ht, by simpa using hchain, rfl⟩, ?_⟩
    simp [Builder.build, Builder.requireGlobalName]

namespace Builder

/-- A part that may not follow the last one, and is no second number, is refused for being no
number. -/
theorem addPart_eq_error {b : Builder} {last part : String} (hname : b.globalName.isSome)
    (hlast : b.path.head? = some last) (ht : checkText .part part = .ok ())
    (ha : Apart last part) (hn : ¬MayFollow last part) :
    b.addPart part = .error (.nonNumericProcessor part) := by
  have hbreach : last = Token.processors.text ∧ ¬isNumeric part = true := by
    unfold MayFollow at hn
    unfold Apart at ha
    tauto
  obtain ⟨name, hname⟩ := Option.isSome_iff_exists.1 hname
  obtain ⟨rest, hpath⟩ : ∃ rest, b.path = last :: rest := by
    cases hpath : b.path with
    | nil => simp [hpath] at hlast
    | cons c rest => exact ⟨rest, by simpa [hpath] using hlast⟩
  simp [addPart, requireGlobalName, hname, ht, checkNext, hpath, hbreach.1, hbreach.2]

theorem foldlM_addPart_eq_error (parts : List String) (b : Builder)
    (hname : b.globalName.isSome) (ht : ∀ part ∈ parts, checkText .part part = .ok ())
    (ha : (b.path.head?.toList ++ parts).IsChain Apart)
    (hn : ¬(b.path.head?.toList ++ parts).IsChain MayFollow) :
    ∃ part, parts.foldlM addPart b = .error (.nonNumericProcessor part) := by
  induction parts generalizing b with
  | nil =>
      exfalso
      apply hn
      cases b.path <;> simp
  | cons part parts ih =>
      have htext := List.forall_mem_cons.1 ht
      rw [List.foldlM_cons]
      by_cases hnext : ∀ last ∈ b.path.head?, MayFollow last part
      · have hstep : b.addPart part = .ok (b.push part) :=
          (addPart_eq_ok_iff b _ part).2 ⟨hname, htext.1, hnext, rfl⟩
        rw [hstep, ok_bind]
        apply ih (b.push part) (by simpa using hname) htext.2
        · cases hpath : b.path <;> simp_all [List.isChain_cons_cons]
        · cases hpath : b.path <;> simp_all [List.isChain_cons_cons]
      · push Not at hnext
        obtain ⟨last, hlast, hnot⟩ := hnext
        have hapart : Apart last part := by
          rw [Option.mem_def] at hlast
          rw [hlast] at ha
          simp only [Option.toList_some, List.cons_append, List.nil_append,
            List.isChain_cons_cons] at ha
          exact ha.1
        refine ⟨part, ?_⟩
        rw [addPart_eq_error hname hlast htext.1 hapart hnot, error_bind]

/-- The location that a builder makes holds the parts in the order they were appended. -/
theorem build_eq_ok_iff (b : Builder) (l : Location) :
    b.build = .ok l ↔ b.globalName = some l.globalName ∧ b.path = l.parts.reverse := by
  unfold build requireGlobalName
  cases b.globalName with
  | none => simp
  | some name =>
      cases l
      simp [List.reverse_eq_iff]

end Builder

/-- A location is read from the JSON text that it is written as just as its text is parsed. -/
theorem parse_json_eq_ok_iff (l l' : Location) :
    Json.parse (fun _ => ofSource) (Json.compact (.text l.text)) = .ok l' ↔
      parse l.text = .ok l' := by
  obtain ⟨s, hs, hread⟩ := Json.read_written (P := fun _ => True) (d := .text l.text) trivial false
  have htext : s.text = .ok l.text := by
    simp [Source.text, Source.asText?_eq_some (Source.isText_of_renders (by rfl) hs)]
  rw [if_neg (by decide)] at hread
  simp only [Json.parse, Reading.take, hread, ofSource, htext, ok_bind, bind_eq_ok_iff,
    mapError_eq_ok_iff, pure_eq_ok, Except.ok.injEq]
  constructor
  · rintro ⟨_, hparse, rfl⟩
    exact hparse
  · exact fun hparse => ⟨l', hparse, rfl⟩

/-- A location that a run of the builder made is parsed back exactly when each part behind
`processors` is a number, and is refused otherwise. -/
theorem parse_text_iff_numbered_of_run {calls : List Builder.Call} {b : Builder} {l : Location}
    (hrun : Builder.empty.run calls = .ok b) (hbuild : b.build = .ok l) :
    (parse l.text = .ok l ↔ Numbered l.parts) ∧
      (Json.parse (fun _ => ofSource) (Json.compact (.text l.text)) = .ok l ↔
        Numbered l.parts) ∧
      (¬Numbered l.parts → ∃ part, parse l.text = .error (.nonNumericProcessor part)) := by
  have hsound := Builder.sound_run Builder.sound_empty hrun
  obtain ⟨hname, hpath⟩ := (Builder.build_eq_ok_iff b l).1 hbuild
  have hglobal : checkGlobalName l.globalName = .ok () := hsound.named _ hname
  have htexts : ∀ part ∈ l.parts, checkText .part part = .ok () := by
    intro part hp
    apply hsound.texts
    simpa [hpath] using hp
  have hapart : l.parts.IsChain Apart := by
    have hchain := hsound.apart
    rw [hpath, List.isChain_reverse] at hchain
    exact hchain
  have hparse : parse l.text = .ok l ↔ Numbered l.parts := by
    rw [parse_text_eq_ok_iff hglobal htexts, isChain_mayFollow_iff]
    exact and_iff_left hapart
  refine ⟨hparse, (parse_json_eq_ok_iff l l).trans hparse, fun hnot => ?_⟩
  obtain ⟨part, herror⟩ := Builder.foldlM_addPart_eq_error l.parts
    { globalName := some l.globalName } rfl htexts (by simpa using hapart)
    (by simpa [isChain_mayFollow_iff] using fun h => absurd h hnot)
  refine ⟨part, ?_⟩
  rw [parse_text hglobal htexts, herror, error_bind]

/-- The processor of a flow: its location is numbered and is parsed back. -/
theorem parse_text_of_flow_processor :
    Builder.empty.run [.globalName "flow", .token .processors, .index 10] =
        .ok ⟨some "flow", ["10", "processors"]⟩ ∧
      parse (Location.text ⟨"flow", ["processors", "10"]⟩) =
        .ok ⟨"flow", ["processors", "10"]⟩ := by
  have hrun : Builder.empty.run [.globalName "flow", .token .processors, .index 10] =
      .ok ⟨some "flow", ["10", "processors"]⟩ := by decide +kernel
  have hbuild : Builder.build ⟨some "flow", ["10", "processors"]⟩ =
      .ok ⟨"flow", ["processors", "10"]⟩ := rfl
  exact ⟨hrun, (parse_text_iff_numbered_of_run hrun hbuild).1.2 (by decide +kernel)⟩

/-- A message source may be appended behind `processors`, and the location is then not parsed. -/
theorem parse_text_of_source_behind_processors :
    ¬∀ (calls : List Builder.Call) (b : Builder) (l : Location),
      Builder.empty.run calls = .ok b → b.build = .ok l → parse l.text = .ok l := by
  intro h
  have hparse := h [.globalName "f", .token .processors, .token .source]
    ⟨some "f", ["source", "processors"]⟩ ⟨"f", ["processors", "source"]⟩ (by decide +kernel) rfl
  have herror : parse (Location.text ⟨"f", ["processors", "source"]⟩) =
      .error (.nonNumericProcessor "source") := by decide +kernel
  rw [herror] at hparse
  cases hparse

end FlowArtifact.Location
