import FlowArtifact.Json.Lexeme
import FlowArtifact.Proofs.Json.Numeral

/-!
# Scanning numbers

The scanner takes one character at a time and keeps places as it goes.  A number
is scanned part by part, each part collected behind what was scanned before, and
ends at the first character that cannot belong to it.
-/

namespace FlowArtifact.Json

namespace Lexeme

/-- No character of a number stands at the beginning. -/
def Delimited (text : List Char) : Prop :=
  ∀ c ∈ text.head?, c.isDigit = false ∧ c ≠ '.' ∧ c ≠ 'e' ∧ c ≠ 'E'

def Stage.Complete (stage : Stage) : Prop :=
  stage = .zero ∨ stage = .whole ∨ stage = .fraction ∨ stage = .exponent

variable {st pk : Place}

theorem scan_cons (p : Place) (s : State) (c : Char) (rest : List Char) :
    scan p s (c :: rest) = (step p s c).1 ++ scan (p.behind c) (step p s c).2 rest := rfl

/-- A character that changes the state and ends no lexeme. -/
theorem scan_silent {p : Place} {s s' : State} {c : Char} (rest : List Char)
    (h : step p s c = ([], s')) : scan p s (c :: rest) = scan (p.behind c) s' rest := by
  rw [scan_cons, h, List.nil_append]

/-! ## Numbers -/

theorem scan_number_end {p : Place} {stage : Stage} {n : Numeral} {rest : List Char}
    (hs : stage.Complete) (hr : Delimited rest) :
    scan p (.number st pk stage n) rest = ofNumeral st pk p n :: scan p .between rest := by
  cases rest with
  | nil => rcases hs with rfl | rfl | rfl | rfl <;> rfl
  | cons c rest =>
      obtain ⟨hdigit, hpoint, he, hE⟩ := hr c rfl
      have hstep : step p (.number st pk stage n) c =
          (ofNumeral st pk p n :: (begin p c).1, (begin p c).2) := by
        rcases hs with rfl | rfl | rfl | rfl <;> simp [step, inNumber, hdigit, hpoint, he, hE]
      rw [scan_cons, hstep, scan_cons]
      rfl

theorem scan_digits (st pk : Place) (stage : Stage) (put : List Char → Numeral)
    (hput : ∀ p cs c, c.isDigit = true → step p (.number st pk stage (put cs)) c =
      ([], .number st pk stage (put (cs ++ [c]))))
    (ds rest : List Char) (hd : ∀ c ∈ ds, c.isDigit = true) (p : Place) (cs : List Char) :
    ∃ q, scan p (.number st pk stage (put cs)) (ds ++ rest) =
      scan q (.number st pk stage (put (cs ++ ds))) rest := by
  induction ds generalizing p cs with
  | nil => exact ⟨p, by simp⟩
  | cons c ds ih =>
      have hc := List.forall_mem_cons.1 hd
      obtain ⟨q, hq⟩ := ih hc.2 (p.behind c) (cs ++ [c])
      refine ⟨q, ?_⟩
      rw [List.cons_append, scan_silent _ (hput p cs c hc.1), hq, List.append_assoc]
      rfl

theorem ne_of_isDigit {c x : Char} (hc : c.isDigit = true) (hx : x.isDigit = false) : c ≠ x := by
  rintro rfl
  simp [hc] at hx

def firstStage (c : Char) : Stage := if c = '0' then .zero else .whole

theorem begin_digit {p : Place} {c : Char} (hc : c.isDigit = true) :
    begin p c = ([], .number p (p.within c) (firstStage c) { whole := [c] }) := by
  have hblank : isBlank c = false := by
    simp [isBlank, ne_of_isDigit hc]
  unfold begin firstStage
  by_cases hz : c = '0'
  · subst hz
    rfl
  · simp [hblank, hz, hc, ne_of_isDigit hc]

theorem step_minus {p : Place} {n : Numeral} {c : Char} (hc : c.isDigit = true) :
    step p (.number st pk .minus n) c =
      ([], .number st pk (firstStage c) { n with whole := [c] }) := by
  unfold firstStage
  by_cases hz : c = '0' <;> simp [step, inNumber, hz, hc]

theorem scan_first (p : Place) (negative : Bool) {c : Char} (hc : c.isDigit = true)
    (rest : List Char) :
    ∃ st pk q, scan p .between ((if negative then ['-'] else []) ++ c :: rest) =
      scan q (.number st pk (firstStage c) { negative, whole := [c] }) rest := by
  cases negative with
  | false => exact ⟨_, _, _, scan_silent rest (begin_digit hc)⟩
  | true =>
      refine ⟨p, p.within '-', (p.behind '-').behind c, ?_⟩
      rw [if_pos rfl, List.singleton_append]
      exact scan_silent rest (step_minus hc)

theorem scan_whole (p : Place) {n : Numeral} (hn : n.WellFormed) (rest : List Char) :
    ∃ st pk q stage, (stage = .zero ∨ stage = .whole) ∧
      scan p .between ((if n.negative then ['-'] else []) ++ n.whole ++ rest) =
        scan q (.number st pk stage { negative := n.negative, whole := n.whole }) rest := by
  obtain ⟨c, ds, hwhole⟩ := List.exists_cons_of_ne_nil hn.whole_ne
  have hdigits := hn.whole_digits
  have hhead := hn.whole_head
  rw [hwhole] at hdigits hhead ⊢
  have hc := List.forall_mem_cons.1 hdigits
  obtain ⟨st, pk, q, hfirst⟩ := scan_first p n.negative hc.1 (ds ++ rest)
  rw [List.append_assoc, List.cons_append, hfirst]
  by_cases hz : c = '0'
  · have hds : ds = [] := by simpa [hz] using hhead
    exact ⟨st, pk, q, .zero, .inl rfl, by simp [firstStage, hz, hds]⟩
  · obtain ⟨q', hq'⟩ := scan_digits st pk .whole
      (fun whole => { negative := n.negative, whole })
      (fun p cs d hd => by simp [step, inNumber, hd]) ds rest hc.2 q [c]
    exact ⟨st, pk, q', .whole, .inr rfl, by simpa [firstStage, hz] using hq'⟩

theorem scan_fraction (p st pk : Place) {stage : Stage} (n : Numeral) {fraction : List Char}
    (hs : stage = .zero ∨ stage = .whole) (hd : ∀ c ∈ fraction, c.isDigit = true)
    (hn : n.fraction = []) (rest : List Char) :
    ∃ q stage', (stage' = .zero ∨ stage' = .whole ∨ stage' = .fraction) ∧
      scan p (.number st pk stage n)
          ((if fraction = [] then [] else '.' :: fraction) ++ rest) =
        scan q (.number st pk stage' { n with fraction }) rest := by
  cases fraction with
  | nil =>
      have hsame : { n with fraction := [] } = n := by
        cases n
        simp_all
      exact ⟨p, stage, hs.imp_right .inl, by rw [hsame]; rfl⟩
  | cons c ds =>
      have hc := List.forall_mem_cons.1 hd
      have hpoint : step p (.number st pk stage n) '.' = ([], .number st pk .point n) := by
        rcases hs with rfl | rfl <;> rfl
      have hfirst (q : Place) : step q (.number st pk .point n) c =
          ([], .number st pk .fraction { n with fraction := [c] }) := by
        simp [step, inNumber, hc.1]
      obtain ⟨q, hq⟩ := scan_digits st pk .fraction
        (fun fraction => { n with fraction })
        (fun p cs d hd => by simp [step, inNumber, hd]) ds rest hc.2 ((p.behind '.').behind c) [c]
      refine ⟨q, .fraction, by simp, ?_⟩
      rw [if_neg (by simp), List.cons_append, List.cons_append, scan_silent _ hpoint,
        scan_silent _ (hfirst _)]
      exact hq

theorem scan_mark (p st pk : Place) {stage : Stage} (n : Numeral) {negative : Bool} {mark c : Char}
    {sign : List Char} (hs : stage = .zero ∨ stage = .whole ∨ stage = .fraction)
    (hmark : mark ∈ ['e', 'E']) (hsign : sign ∈ Numeral.exponentSigns negative)
    (hc : c.isDigit = true) (hn : n.exponentNegative = false) (rest : List Char) :
    ∃ q, scan p (.number st pk stage n) (mark :: (sign ++ c :: rest)) =
      scan q (.number st pk .exponent { n with
        hasExponent := true, exponentNegative := negative, exponent := [c] }) rest := by
  let marked : Numeral := { n with hasExponent := true }
  have hstart : step p (.number st pk stage n) mark = ([], .number st pk .mark marked) := by
    simp only [List.mem_cons, List.not_mem_nil, or_false] at hmark
    rcases hmark with rfl | rfl <;> rcases hs with rfl | rfl | rfl <;> rfl
  have hfirst (q : Place) (signed : Numeral) : step q (.number st pk .sign signed) c =
      ([], .number st pk .exponent { signed with exponent := [c] }) := by
    simp [step, inNumber, hc]
  have hkeep : { marked with exponentNegative := false, exponent := [c] } =
      { marked with exponent := [c] } := by
    simp [marked, hn]
  rw [scan_silent _ hstart]
  cases negative with
  | true =>
      obtain rfl : sign = ['-'] := by simpa [Numeral.exponentSigns] using hsign
      have hminus (q : Place) : step q (.number st pk .mark marked) '-' =
          ([], .number st pk .sign { marked with exponentNegative := true }) := rfl
      exact ⟨_, (scan_silent _ (hminus _)).trans (scan_silent _ (hfirst _ _))⟩
  | false =>
      obtain rfl | rfl : sign = ['+'] ∨ sign = [] := by simpa [Numeral.exponentSigns] using hsign
      · have hplus (q : Place) : step q (.number st pk .mark marked) '+' =
            ([], .number st pk .sign marked) := rfl
        rw [List.singleton_append, scan_silent _ (hplus _), scan_silent _ (hfirst _ _), ← hkeep]
        exact ⟨_, rfl⟩
      · have hdigit (q : Place) : step q (.number st pk .mark marked) c =
            ([], .number st pk .exponent { marked with exponent := [c] }) := by
          simp [step, inNumber, hc, ne_of_isDigit hc]
        rw [List.nil_append, scan_silent _ (hdigit _), ← hkeep]
        exact ⟨_, rfl⟩

theorem scan_exponent (p st pk : Place) {stage : Stage} (n : Numeral) {negative : Bool}
    {mark : Char} {sign exponent : List Char}
    (hs : stage = .zero ∨ stage = .whole ∨ stage = .fraction) (hmark : mark ∈ ['e', 'E'])
    (hsign : sign ∈ Numeral.exponentSigns negative) (hne : exponent ≠ [])
    (hd : ∀ c ∈ exponent, c.isDigit = true) (hn : n.exponentNegative = false)
    (rest : List Char) :
    ∃ q, scan p (.number st pk stage n) (mark :: sign ++ exponent ++ rest) =
        scan q (.number st pk .exponent
          { n with hasExponent := true, exponentNegative := negative, exponent }) rest := by
  obtain ⟨c, ds, rfl⟩ := List.exists_cons_of_ne_nil hne
  have hc := List.forall_mem_cons.1 hd
  obtain ⟨q, hq⟩ := scan_mark p st pk n hs hmark hsign hc.1 hn (ds ++ rest)
  obtain ⟨q', hq'⟩ := scan_digits st pk .exponent
    (fun exponent => { n with hasExponent := true, exponentNegative := negative, exponent })
    (fun p cs d hd => by simp [step, inNumber, hd]) ds rest hc.2 q [c]
  have htext : mark :: sign ++ c :: ds ++ rest = mark :: (sign ++ c :: (ds ++ rest)) := by simp
  refine ⟨q', ?_⟩
  rw [htext, hq]
  exact hq'

/-- A numeral is scanned to one lexeme, in each of the ways to write it. -/
theorem scan_numeral (p : Place) {n : Numeral} (hn : n.WellFormed) {exponent rest : List Char}
    (hexponent : n.SpellsExponent exponent) (hr : Delimited rest) :
    ∃ st pk stop, scan p .between (n.charsWith exponent ++ rest) =
      ofNumeral st pk stop n :: scan stop .between rest := by
  have htext : n.charsWith exponent ++ rest = (if n.negative then ['-'] else []) ++ n.whole ++
      ((if n.fraction = [] then [] else '.' :: n.fraction) ++ (exponent ++ rest)) := by
    simp [Numeral.charsWith]
  rw [htext]
  obtain ⟨st, pk, q, stage, hstage, hwhole⟩ := scan_whole p hn _
  obtain ⟨q', stage', hstage', hfraction⟩ := scan_fraction q st pk
    { negative := n.negative, whole := n.whole } hstage hn.fraction_digits rfl _
  rw [hwhole, hfraction]
  unfold Numeral.SpellsExponent at hexponent
  cases hexp : n.hasExponent with
  | false =>
      obtain ⟨hneg, hnone⟩ := hn.no_exponent hexp
      obtain rfl : exponent = [] := by simpa [hexp] using hexponent
      refine ⟨st, pk, q', ?_⟩
      rw [List.nil_append, scan_number_end (by unfold Stage.Complete; tauto) hr]
      congr 2
      cases n
      simp_all
  | true =>
      rw [if_pos hexp] at hexponent
      obtain ⟨mark, hmark, sign, hsign, rfl⟩ := hexponent
      obtain ⟨q'', hscan⟩ := scan_exponent q' st pk
        { negative := n.negative, whole := n.whole, fraction := n.fraction }
        hstage' hmark hsign (hn.exponent_ne hexp) hn.exponent_digits rfl rest
      refine ⟨st, pk, q'', ?_⟩
      rw [hscan, scan_number_end (by unfold Stage.Complete; tauto) hr]
      congr 2
      cases n
      simp_all

end Lexeme

end FlowArtifact.Json
