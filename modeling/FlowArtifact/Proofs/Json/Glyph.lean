import FlowArtifact.Json.Printer
import FlowArtifact.Proofs.Json.Scan
import FlowArtifact.Proofs.Outcome

/-!
# Scanning texts

A text is written glyph by glyph: a glyph is a character or a code of four
hexadecimal digits, and two codes may be the halves of one character.  The text
has no value if a half stands alone.  The scanner takes a glyph at a time, keeps
the first half of a pair until the second one comes, and notes a fault where a
half stands alone; what the text will be, given the glyphs to come, stays the
same at each step.
-/

namespace FlowArtifact.Json

open Lexeme (State Draft hexDigit? escaped?)

inductive Glyph where
  | char (c : Char)
  | code (n : Nat)

namespace Glyph

inductive Spells : List Char → Glyph → Prop
  | plain {c : Char} (hquote : c ≠ '"') (hslash : c ≠ '\\') (hprint : 32 ≤ c.toNat) :
      Spells [c] (.char c)
  | letter {x c : Char} (hx : escaped? x = some c) : Spells ['\\', x] (.char c)
  | code {a b c d : Char} {i j k l : Nat} (ha : hexDigit? a = some i) (hb : hexDigit? b = some j)
      (hc : hexDigit? c = some k) (hd : hexDigit? d = some l) :
      Spells ['\\', 'u', a, b, c, d] (.code (((i * 16 + j) * 16 + k) * 16 + l))

def IsHigh (n : Nat) : Prop := 0xD800 ≤ n ∧ n ≤ 0xDBFF

def IsLow (n : Nat) : Prop := 0xDC00 ≤ n ∧ n ≤ 0xDFFF

instance (n : Nat) : Decidable (IsHigh n) := inferInstanceAs (Decidable (_ ∧ _))

instance (n : Nat) : Decidable (IsLow n) := inferInstanceAs (Decidable (_ ∧ _))

def pair (high low : Nat) : Char := Char.ofNat ((high - 0xD800) * 1024 + (low - 0xDC00) + 0x10000)

/-- The characters that glyphs stand for, behind the first half of a pair if there is one; none if
a half stands alone. -/
def decode : Option Nat → List Glyph → Option (List Char)
  | none, [] => some []
  | none, .char c :: rest => (decode none rest).map (c :: ·)
  | none, .code n :: rest =>
    if IsLow n then none
    else if IsHigh n then decode (some n) rest
    else (decode none rest).map (Char.ofNat n :: ·)
  | some high, .code n :: rest =>
    if IsLow n then (decode none rest).map (pair high n :: ·) else none
  | some _, _ => none

end Glyph

def textOf? (gs : List Glyph) : Option String := (Glyph.decode none gs).map String.ofList

inductive SpellsText : List Char → List Glyph → Prop
  | nil : SpellsText [] []
  | cons {cs body : List Char} {g : Glyph} {gs : List Glyph} (hglyph : Glyph.Spells cs g)
      (hrest : SpellsText body gs) : SpellsText (cs ++ body) (g :: gs)

/-! ## Glyphs -/

namespace Lexeme

theorem utf8Size_of_hexDigit? {c : Char} {d : Nat} (h : hexDigit? c = some d) :
    c.utf8Size = 1 := by
  have hascii : c.toNat ≤ 127 := by
    unfold hexDigit? at h
    split at h
    next hdigit =>
      simp only [Char.isDigit, Bool.and_eq_true, decide_eq_true_eq] at hdigit
      exact Nat.le_trans hdigit.2 (by decide)
    next =>
      split at h
      next hletter => exact Nat.le_trans hletter.2 (by decide)
      next =>
        split at h
        next hletter => exact Nat.le_trans hletter.2 (by decide)
        next => cases h
  exact if_pos hascii

/-- Inside a text, behind the first half of a pair if there is one. -/
def textState (t : Draft) : Option Nat → State
  | none => .text t
  | some high => .half t high

def Draft.with? (t : Draft) (high : Option Nat) (gs : List Glyph) : Option String :=
  if t.fault.isSome then none
  else (Glyph.decode high gs).map fun cs => String.ofList (t.chars.reverse ++ cs)

theorem with?_push (t : Draft) (c : Char) (gs : List Glyph) :
    (t.push c).with? none gs = t.with? none (.char c :: gs) := by
  simp [Draft.with?, Draft.push, Glyph.decode, Function.comp_def]

theorem with?_mar (t : Draft) (flaw : Flaw) (p : Place) (high : Option Nat) (gs : List Glyph) :
    (t.mar flaw p).with? high gs = none := by
  simp [Draft.with?, Draft.mar]

theorem with?_half_char (t : Draft) (high : Nat) (c : Char) (gs : List Glyph) :
    t.with? (some high) (.char c :: gs) = none := by
  simp [Draft.with?, Glyph.decode]

/-- The four digits of a code. -/
theorem scan_hex (p : Place) (t : Draft) (high : Option Nat) {a b c d : Char} {i j k l : Nat}
    (ha : hexDigit? a = some i) (hb : hexDigit? b = some j) (hc : hexDigit? c = some k)
    (hd : hexDigit? d = some l) (rest : List Char) :
    ∃ q, scan p (.hex t 4 (some 0) high) (a :: b :: c :: d :: rest) =
      scan q (endHex q t (((i * 16 + j) * 16 + k) * 16 + l) high) rest := by
  have hdigit (q : Place) (left value d : Nat) {x : Char} (hd : hexDigit? x = some d)
      (hleft : 1 < left) : step q (.hex t left (some value) high) x =
        ([], .hex t (left - 1) (some (value * 16 + d)) high) := by
    have hlt : ¬left < 1 := by omega
    have hne : left - 1 ≠ 0 := by omega
    simp [step, inHex, utf8Size_of_hexDigit? hd, hd, hlt, hne]
  have hlast (q : Place) (value d : Nat) {x : Char} (hd : hexDigit? x = some d) :
      step q (.hex t 1 (some value) high) x =
        ([], endHex (q.behind x) t (value * 16 + d) high) := by
    simp [step, inHex, utf8Size_of_hexDigit? hd, hd]
  have hfirst : 0 * 16 + i = i := by omega
  refine ⟨(((p.behind a).behind b).behind c).behind d, ?_⟩
  rw [scan_silent _ (hdigit _ 4 0 i ha (by decide)), scan_silent _ (hdigit _ 3 _ j hb (by decide)),
    scan_silent _ (hdigit _ 2 _ k hc (by decide)), scan_silent _ (hlast _ _ l hd), hfirst]

theorem endHex_eq (q : Place) (t : Draft) (n : Nat) (high : Option Nat) :
    ∃ t' high', endHex q t n high = textState t' high' ∧
      ∀ gs, t'.with? high' gs = t.with? high (.code n :: gs) := by
  cases high with
  | none =>
      by_cases hlow : Glyph.IsLow n
      · refine ⟨t.mar .loneSurrogate q, none, if_pos hlow, fun gs => ?_⟩
        rw [with?_mar]
        simp [Draft.with?, Glyph.decode, hlow]
      · by_cases hhigh : Glyph.IsHigh n
        · refine ⟨t, some n, (if_neg hlow).trans (if_pos hhigh), fun gs => ?_⟩
          simp [Draft.with?, Glyph.decode, hlow, hhigh]
        · refine ⟨t.push (Char.ofNat n), none, (if_neg hlow).trans (if_neg hhigh), fun gs => ?_⟩
          simp [Draft.with?, Draft.push, Glyph.decode, hlow, hhigh, Function.comp_def]
  | some high =>
      by_cases hlow : Glyph.IsLow n
      · refine ⟨t.push (Glyph.pair high n), none, if_pos hlow, fun gs => ?_⟩
        simp [Draft.with?, Draft.push, Glyph.decode, hlow, Function.comp_def]
      · refine ⟨t.mar .loneSurrogate q, none, if_neg hlow, fun gs => ?_⟩
        rw [with?_mar]
        simp [Draft.with?, Glyph.decode, hlow]

/-- A glyph is taken, and what the text will be is the same as before. -/
theorem scan_glyph (p : Place) (t : Draft) (high : Option Nat) {cs : List Char} {g : Glyph}
    (hg : g.Spells cs) (rest : List Char) :
    ∃ q t' high', scan p (textState t high) (cs ++ rest) = scan q (textState t' high') rest ∧
      ∀ gs, t'.with? high' gs = t.with? high (g :: gs) := by
  cases hg with
  | @plain c hquote hslash hprint =>
      have htext (t : Draft) : inText p t c = ([], .text (t.push c)) := by
        simp [inText, hquote, hslash, Nat.not_lt.2 hprint]
      -- Behind a first half the character spoils the draft, which goes on all the same.
      cases high with
      | none => exact ⟨_, _, none, scan_silent rest (htext t), with?_push t c⟩
      | some high =>
          have hstep : step p (.half t high) c =
              ([], .text ((t.mar .endOfHexEscape (p.within c)).push c)) := by
            simp [step, hslash, htext]
          refine ⟨_, _, none, scan_silent rest hstep, fun gs => ?_⟩
          rw [with?_push, with?_mar, with?_half_char]
  | @letter x c hx =>
      have hu : x ≠ 'u' := by
        rintro rfl
        cases hx
      have hescape (q : Place) (t : Draft) : inEscape q t x = ([], .text (t.push c)) := by
        simp [inEscape, hu, hx]
      cases high with
      | none =>
          have hslash : step p (.text t) '\\' = ([], .escape t) := rfl
          exact ⟨_, _, none, (scan_silent _ hslash).trans (scan_silent rest (hescape _ t)),
            with?_push t c⟩
      | some high =>
          have hslash : step p (.half t high) '\\' = ([], .halfEscape t high) := rfl
          have hstep (q : Place) : step q (.halfEscape t high) x =
              ([], .text ((t.mar .endOfHexEscape (q.within x)).push c)) := by
            simp [step, hu, hescape]
          refine ⟨_, _, none, (scan_silent _ hslash).trans (scan_silent rest (hstep _)),
            fun gs => ?_⟩
          rw [with?_push, with?_mar, with?_half_char]
  | code ha hb hc hd =>
      have hstart (text : List Char) : scan p (textState t high) ('\\' :: 'u' :: text) =
          scan ((p.behind '\\').behind 'u') (.hex t 4 (some 0) high) text := by
        cases high <;> rfl
      obtain ⟨q, hscan⟩ := scan_hex ((p.behind '\\').behind 'u') t high ha hb hc hd rest
      obtain ⟨t', high', hend, hwith⟩ := endHex_eq q t _ high
      exact ⟨q, t', high', (hstart _).trans (hscan.trans (by rw [hend])), hwith⟩

theorem scan_glyphs (p : Place) (t : Draft) (high : Option Nat) {body : List Char}
    {gs : List Glyph} (h : SpellsText body gs) (rest : List Char) :
    ∃ q t' high', scan p (textState t high) (body ++ rest) = scan q (textState t' high') rest ∧
      t'.with? high' [] = t.with? high gs := by
  induction h generalizing p t high with
  | nil => exact ⟨p, t, high, rfl, rfl⟩
  | cons hglyph _ ih =>
      obtain ⟨q, t', high', hscan, hwith⟩ := scan_glyph p t high hglyph _
      obtain ⟨q', t'', high'', hscan', hwith'⟩ := ih q t' high'
      refine ⟨q', t'', high'', ?_, by rw [hwith', hwith]⟩
      rw [List.append_assoc, hscan, hscan']

theorem scan_quote (p : Place) (t : Draft) (high : Option Nat) (rest : List Char) :
    ∃ v, scan p (textState t high) ('"' :: rest) =
        ⟨t.start, t.peek, p.behind '"', .text v⟩ :: scan (p.behind '"') .between rest ∧
      v.toOption = t.with? high [] := by
  cases high with
  | none =>
      refine ⟨_, rfl, ?_⟩
      cases hfault : t.fault <;> simp [Draft.with?, Glyph.decode, hfault]
  | some high =>
      obtain ⟨f, hfault⟩ : ∃ f, (t.mar .endOfHexEscape (p.within '"')).fault = some f := by
        cases ht : t.fault <;> simp [Draft.mar, ht]
      have hstep : step p (.half t high) '"' =
          ([⟨t.start, t.peek, p.behind '"', .text (.error f)⟩], .between) := by
        simp [step, inText, Draft.lexeme, hfault]
        exact ⟨rfl, rfl⟩
      refine ⟨.error f, ?_, by simp [Draft.with?, Glyph.decode]⟩
      rw [textState, scan_cons, hstep]
      rfl

/-- A text is scanned to one lexeme, however it is written. -/
theorem scan_text (p : Place) {body : List Char} {gs : List Glyph} (h : SpellsText body gs)
    (rest : List Char) :
    ∃ st pk stop v, scan p .between ('"' :: (body ++ '"' :: rest)) =
      ⟨st, pk, stop, .text v⟩ :: scan stop .between rest ∧ v.toOption = textOf? gs := by
  have hbegin : step p .between '"' = ([], .text { start := p, peek := p.within '"' }) := rfl
  obtain ⟨q, t, high, hscan, hwith⟩ :=
    scan_glyphs (p.behind '"') { start := p, peek := p.within '"' } none h ('"' :: rest)
  obtain ⟨v, hquote, hv⟩ := scan_quote q t high rest
  refine ⟨t.start, t.peek, q.behind '"', v, ?_, ?_⟩
  · rw [scan_silent _ hbegin, ← hquote, ← hscan]
    rfl
  · rw [hv, hwith]
    simp [Draft.with?, textOf?]

end Lexeme

/-! ## Written texts -/

theorem hexDigit?_hexChar {d : Nat} (h : d < 16) : hexDigit? (hexChar d) = some d := by
  revert d
  decide

/-- What is written for a character is a glyph that stands for it. -/
theorem exists_spells_escape (c : Char) :
    ∃ g, Glyph.Spells (escape c) g ∧
      ∀ gs, Glyph.decode none (g :: gs) = (Glyph.decode none gs).map (c :: ·) := by
  have hchar {cs : List Char} (h : Glyph.Spells cs (.char c)) : ∃ g, Glyph.Spells cs g ∧
      ∀ gs, Glyph.decode none (g :: gs) = (Glyph.decode none gs).map (c :: ·) :=
    ⟨.char c, h, fun _ => rfl⟩
  unfold escape
  by_cases hquote : c = '"'
  · subst hquote
    exact hchar (.letter rfl)
  rw [if_neg hquote]
  by_cases hslash : c = '\\'
  · subst hslash
    exact hchar (.letter rfl)
  rw [if_neg hslash]
  by_cases hprint : 32 ≤ c.toNat
  · rw [if_pos hprint]
    exact hchar (.plain hquote hslash hprint)
  rw [if_neg hprint]
  by_cases hline : c = '\n'
  · subst hline
    exact hchar (.letter rfl)
  rw [if_neg hline]
  by_cases hreturn : c = '\r'
  · subst hreturn
    exact hchar (.letter rfl)
  rw [if_neg hreturn]
  by_cases htab : c = '\t'
  · subst htab
    exact hchar (.letter rfl)
  rw [if_neg htab]
  by_cases hback : c.toNat = 8
  · obtain rfl : c = Char.ofNat 8 := by rw [← hback, Char.ofNat_toNat]
    exact hchar (.letter rfl)
  rw [if_neg hback]
  by_cases hfeed : c.toNat = 12
  · obtain rfl : c = Char.ofNat 12 := by rw [← hfeed, Char.ofNat_toNat]
    exact hchar (.letter rfl)
  rw [if_neg hfeed]
  -- A control character that has no letter of its own is written by its four digits.
  have hvalue : ((0 * 16 + 0) * 16 + c.toNat / 16) * 16 + c.toNat % 16 = c.toNat := by omega
  have hzero : hexDigit? '0' = some 0 := rfl
  have hcode := Glyph.Spells.code hzero hzero (hexDigit?_hexChar (d := c.toNat / 16) (by omega))
    (hexDigit?_hexChar (d := c.toNat % 16) (by omega))
  rw [hvalue] at hcode
  refine ⟨.code c.toNat, hcode, fun gs => ?_⟩
  have hlow : ¬Glyph.IsLow c.toNat := by unfold Glyph.IsLow; omega
  have hhigh : ¬Glyph.IsHigh c.toNat := by unfold Glyph.IsHigh; omega
  rw [Glyph.decode, if_neg hlow, if_neg hhigh, Char.ofNat_toNat]

theorem exists_spellsText (cs : List Char) :
    ∃ gs, SpellsText (cs.flatMap escape) gs ∧ Glyph.decode none gs = some cs := by
  induction cs with
  | nil => exact ⟨[], .nil, rfl⟩
  | cons c cs ih =>
      obtain ⟨gs, hgs, hdecode⟩ := ih
      obtain ⟨g, hg, hchar⟩ := exists_spells_escape c
      exact ⟨g :: gs, .cons hg hgs, by rw [hchar, hdecode]; rfl⟩

end FlowArtifact.Json
