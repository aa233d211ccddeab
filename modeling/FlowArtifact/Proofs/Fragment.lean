import FlowArtifact.Serialization
import Mathlib.Data.String.Basic

/-!
# The part of a line that an error shows

A fault of a JSON text is placed by the bytes of its line, and the part of the line
that is shown is cut by characters.  Both agree on a line of ASCII; on another line
the part begins too far behind as soon as the bytes up to the fault exceed the
characters by more than half of the part.
-/

namespace FlowArtifact

open String (utf8Len utf8Len_nil utf8Len_cons)

namespace Text

theorem length_le_utf8Len (cs : List Char) : cs.length ≤ utf8Len cs := by
  induction cs with
  | nil => simp
  | cons c cs ih =>
      have hpos := c.utf8Size_pos
      rw [utf8Len_cons, List.length_cons]
      omega

theorem exists_char_of_byte {cs : List Char} {n : Nat} (hfirst : 0 < n) (hlast : n ≤ utf8Len cs) :
    ∃ before c after, cs = before ++ c :: after ∧ utf8Len before < n ∧
      n ≤ utf8Len before + c.utf8Size := by
  induction cs generalizing n with
  | nil =>
      rw [utf8Len_nil] at hlast
      omega
  | cons c cs ih =>
      rw [utf8Len_cons] at hlast
      by_cases hn : n ≤ c.utf8Size
      · exact ⟨[], c, cs, rfl, by simpa using hfirst, by simpa using hn⟩
      · obtain ⟨before, d, after, rfl, hbefore, hd⟩ :=
          ih (n := n - c.utf8Size) (by omega) (by omega)
        refine ⟨c :: before, d, after, rfl, ?_, ?_⟩ <;>
          · rw [utf8Len_cons]
            omega

end Text

/-- The window around a column shows the character behind `k` others: with another character in
its place, the window is another one. -/
def Shown (line : List Char) (column k : Nat) : Prop :=
  ∃ c, window (line.set k c) column ≠ window line column

theorem getElem?_window (cs : List Char) (column i : Nat) :
    (window cs column)[i]? = if i < 40 then cs[column - 21 + i]? else none := by
  show ((cs.drop (column - 21)).take 40)[i]? = _
  rw [List.getElem?_take, List.getElem?_drop]

theorem length_window_le (line : List Char) (column : Nat) : (window line column).length ≤ 40 :=
  List.length_take_le 40 _

/-- The window shows forty characters, beginning twenty before the one of the column's number. -/
theorem shown_iff {cs : List Char} {column k : Nat} (hk : k < cs.length) :
    Shown cs column k ↔ column - 21 ≤ k ∧ k < column - 21 + 40 := by
  constructor
  · rintro ⟨c, hc⟩
    refine Decidable.byContradiction fun hout => hc (List.ext_getElem? fun i => ?_)
    rw [getElem?_window, getElem?_window]
    by_cases hi : i < 40
    · rw [if_pos hi, if_pos hi, List.getElem?_set_ne (by omega)]
    · rw [if_neg hi, if_neg hi]
  · rintro ⟨hfirst, hlast⟩
    obtain ⟨c, hc⟩ : ∃ c, c ≠ cs[k] := by
      by_cases ha : cs[k] = 'a'
      · exact ⟨'b', by simp [ha]⟩
      · exact ⟨'a', Ne.symm ha⟩
    refine ⟨c, fun hsame => hc ?_⟩
    have hat := congrArg (fun shown : List Char => shown[k - (column - 21)]?) hsame
    have hindex : column - 21 + (k - (column - 21)) = k := by omega
    simp only [getElem?_window, if_pos (show k - (column - 21) < 40 by omega), hindex] at hat
    rw [List.getElem?_set_self hk, List.getElem?_eq_getElem hk] at hat
    exact Option.some.inj hat

/-- Byte number `column` of a line, counted from 1, lies in the character behind `before`. -/
structure ByteOf (line before : List Char) (c : Char) (after : List Char) (column : Nat) :
    Prop where
  parts : line = before ++ c :: after
  first : utf8Len before < column
  last : column ≤ utf8Len before + c.utf8Size

theorem exists_byteOf {line : List Char} {column : Nat} (hfirst : 0 < column)
    (hlast : column ≤ utf8Len line) :
    ∃ before c after, ByteOf line before c after column := by
  obtain ⟨before, c, after, hparts, hbefore, hc⟩ := Text.exists_char_of_byte hfirst hlast
  exact ⟨before, c, after, hparts, hbefore, hc⟩

/-- The window shows the character of a byte if the number of the byte is not more than twenty
ahead of that of the character. -/
theorem ByteOf.shown_iff {line before after : List Char} {c : Char} {column : Nat}
    (h : ByteOf line before c after column) :
    Shown line column before.length ↔ column ≤ before.length + 1 + 20 := by
  have hlength := Text.length_le_utf8Len before
  have hfirst := h.first
  rw [FlowArtifact.shown_iff (by simp [h.parts])]
  omega

theorem fragment_eq {text : String} {n column : Nat} {line : List Char} (hn : 0 < n)
    (hline : (Text.lines text.toList)[n - 1]? = some line) :
    fragment text n column = String.ofList (Text.trim (window line column)) := by
  rw [fragment, if_neg (by omega), hline, Option.getD_some]

/-- What a fault of a JSON text shows of its line is a window of at most forty characters.  It holds
the character in which the byte of the fault's column lies exactly if the number of that byte is
not more than twenty ahead of the number of the character. -/
theorem malformed_shows_column_iff {text : String} {f : Fault} {p : Place} {line : List Char}
    (hplace : f.place = some p) (hnumber : 0 < p.line)
    (hline : (Text.lines text.toList)[p.line - 1]? = some line) (hfirst : 0 < p.column)
    (hlast : p.column ≤ utf8Len line) :
    malformed .json text f = .malformed p.line p.column (f.message Json.wording)
        (String.ofList (Text.trim (window line p.column))) ∧
      (window line p.column).length ≤ 40 ∧
      (∃ before c after, ByteOf line before c after p.column) ∧
      ∀ before c after, ByteOf line before c after p.column →
        (Shown line p.column before.length ↔ p.column ≤ before.length + 1 + 20) := by
  refine ⟨?_, length_window_le line p.column, exists_byteOf hfirst hlast,
    fun before c after h => h.shown_iff⟩
  simp only [malformed, hplace, fragment_eq hnumber hline]
  rfl

/-- A broken text on one line: behind a key of characters of four bytes each stands an `x`. -/
def wideKey (n : Nat) : String :=
  String.ofList (['{', '"'] ++ List.replicate n '😀' ++ ['"', 'x', '}'])

/-- Behind six characters of four bytes each the byte is eighteen ahead of its character. -/
theorem malformed_shows_wideKey :
    (Text.lines (wideKey 6).toList)[0]? = some (wideKey 6).toList ∧
      28 ≤ utf8Len (wideKey 6).toList ∧
      malformed .json (wideKey 6) ⟨.json .expectedColon, some { line := 1, column := 28 }⟩ =
        .malformed 1 28 "expected `:` at line 1 column 28" "😀\"x\x7d" ∧
      Shown (wideKey 6).toList 28 9 := by
  have hline : (Text.lines (wideKey 6).toList)[0]? = some (wideKey 6).toList := by decide +kernel
  have hlast : 28 ≤ utf8Len (wideKey 6).toList := by decide +kernel
  obtain ⟨hmalformed, -, -, hshown⟩ := malformed_shows_column_iff
    (f := ⟨.json .expectedColon, some { line := 1, column := 28 }⟩) rfl (by decide) hline
    (by decide) hlast
  have hbyte : ByteOf (wideKey 6).toList ((wideKey 6).toList.take 9) 'x' ['}'] 28 :=
    ⟨by decide +kernel, by decide +kernel, by decide +kernel⟩
  refine ⟨hline, hlast, hmalformed.trans (by decide +kernel), ?_⟩
  exact (hshown _ _ _ hbyte).2 (by decide +kernel)

/-- Behind seven characters of four bytes each a fault is reported, and its place is not shown. -/
theorem not_shown_wideKey :
    ¬∀ (text : String) (n column : Nat) (message fragment : String) (line before : List Char)
      (c : Char) (after : List Char),
      Artifact.deserialize .json text = .error (.malformed n column message fragment) →
        0 < n → (Text.lines text.toList)[n - 1]? = some line →
          ByteOf line before c after column → Shown line column before.length := by
  intro h
  have hreported : Artifact.deserialize .json (wideKey 7) =
      .error (.malformed 1 32 "expected `:` at line 1 column 32" "\x7d") := by
    have hcheck : (match Artifact.deserialize .json (wideKey 7) with
      | .ok _ => none
      | .error e => some e) =
        some (.malformed 1 32 "expected `:` at line 1 column 32" "\x7d") := by
      decide +kernel
    cases hresult : Artifact.deserialize .json (wideKey 7) with
    | ok a => simp [hresult] at hcheck
    | error e =>
        rw [hresult] at hcheck
        exact congrArg Except.error (Option.some.inj hcheck)
  have hbyte : ByteOf (wideKey 7).toList ((wideKey 7).toList.take 10) 'x' ['}'] 32 :=
    ⟨by decide +kernel, by decide +kernel, by decide +kernel⟩
  have hshown := h _ _ _ _ _ _ _ _ _ hreported (by decide) (by decide +kernel) hbyte
  exact absurd (hbyte.shown_iff.1 hshown) (by decide +kernel)

end FlowArtifact
