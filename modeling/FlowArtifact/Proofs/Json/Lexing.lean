import FlowArtifact.Proofs.Doc
import FlowArtifact.Proofs.Json.Grammar
import FlowArtifact.Proofs.Json.Real
import Mathlib.Data.List.Forall2

/-!
# The lexemes of a JSON text

What a reader needs of the lexemes of a text are their kinds, not their places.
A lexeme is therefore compared with a `Token`: a JSON text is scanned to lexemes
that carry its tokens, wherever it stands.  The two layouts of a document are JSON
texts with the same tokens, those of `Tree.ofDoc`; each lemma puts one written
piece in front of a text.
-/

namespace FlowArtifact.Json

def Carries (l : Lexeme) : Token → Prop
  | .openList => l.kind = .openList
  | .closeList => l.kind = .closeList
  | .openRecord => l.kind = .openRecord
  | .closeRecord => l.kind = .closeRecord
  | .comma => l.kind = .comma
  | .colon => l.kind = .colon
  | .text s => ∃ value, l.kind = .text value ∧ value.toOption = s
  | .scalar s => ∃ value, l.kind = .scalar value ∧ value.toOption = s
  | .finish => l.kind = .finish

open Lexeme (Delimited)

/-- A JSON text is scanned to its tokens, wherever it stands. -/
theorem carries_scan {text : List Char} {ts : List Token} (h : Writes text ts) (p : Place) :
    List.Forall₂ Carries (Lexeme.scan p .between text) ts := by
  induction h generalizing p with
  | finish => exact .cons rfl .nil
  | @blank c text ts hc _ ih =>
      have hstep : Lexeme.step p .between c = ([], .between) := by
        simp [Lexeme.step, Lexeme.begin, hc]
      rw [Lexeme.scan_silent text hstep]
      exact ih (p.behind c)
  | openList _ ih | closeList _ ih | openRecord _ ih | closeRecord _ ih | comma _ ih | colon _ ih =>
      exact .cons rfl (ih _)
  | null _ ih | true _ ih | false _ ih => exact .cons ⟨_, rfl, rfl⟩ (ih _)
  | @number n _ _ _ hn hexponent hend _ ih =>
      obtain ⟨st, pk, stop, hscan⟩ := Lexeme.scan_numeral p hn hexponent hend
      rw [hscan]
      refine .cons ⟨_, rfl, ?_⟩ (ih stop)
      cases n.value <;> rfl
  | text hbody _ ih =>
      obtain ⟨st, pk, stop, v, hscan, hv⟩ := Lexeme.scan_text p hbody _
      rw [hscan]
      exact .cons ⟨v, rfl, hv⟩ (ih stop)

/-! ## Written pieces -/

/-- What is read of a scalar that was written, if it is in range. -/
def restored? : Scalar → Option Scalar
  | .real x => x.restored?
  | s => some s

namespace Tree

mutual
def ofDoc : Doc → Tree
  | .scalar (.text s) => .text (some s)
  | .scalar s => .scalar (restored? s)
  | .minusZero => .scalar none
  | .list items => .list (ofItems items)
  | .record fields => .record (ofFields fields)

def ofItems : List Doc → List Tree
  | [] => []
  | d :: rest => ofDoc d :: ofItems rest

def ofFields : List (Head × Doc) → List (Option String × Tree)
  | [] => []
  | (key, d) :: rest => (key.name?, ofDoc d) :: ofFields rest
end

end Tree

section

variable {text : List Char} {ts : List Token} (h : Writes text ts)
include h

theorem writes_lineChars (level : Nat) : Writes (lineChars level ++ text) ts := by
  have hindent : ∀ n, Writes (List.replicate n ' ' ++ text) ts := by
    intro n
    induction n with
    | zero => exact h
    | succ n ih => exact .blank rfl ih
  exact .blank rfl (hindent (2 * level))

theorem writes_textChars (s : String) : Writes (textChars s ++ text) (.text (some s) :: ts) := by
  obtain ⟨gs, hspells, hdecode⟩ := exists_spellsText s.toList
  have htext : textOf? gs = some s := by simp [textOf?, hdecode]
  have hchars : textChars s ++ text = '"' :: (s.toList.flatMap escape ++ '"' :: text) := by
    simp [textChars]
  rw [hchars, ← htext]
  exact .text hspells h

theorem writes_numeral {n : Numeral} (hn : n.WellFormed) (hd : Delimited text) :
    Writes (n.chars ++ text) (.scalar n.value.toOption :: ts) := by
  obtain ⟨exponent, hexponent, hchars⟩ := n.exists_spellsExponent
  rw [hchars]
  exact .number hn hexponent hd h

/-- A scalar in front of a text that cannot go on with a number. -/
theorem writes_scalarChars (s : Scalar) (hd : Delimited text) :
    Writes (scalarChars s ++ text) ((Tree.ofDoc (.scalar s)).tokens ts) := by
  cases s with
  | null => exact .null h
  | bool b =>
      cases b with
      | false => exact .false h
      | true => exact .true h
  | int n =>
      have hchars : scalarChars (.int n) = (Numeral.ofInt n.val).chars :=
        (Numeral.chars_ofInt n.val).symm
      have hvalue : (Numeral.ofInt n.val).value.toOption = restored? (.int n) := by
        rw [Numeral.value_ofInt]
        rfl
      show Writes _ (.scalar (restored? (.int n)) :: ts)
      rw [hchars, ← hvalue]
      exact writes_numeral h (Numeral.wellFormed_ofInt n.val) hd
  | real x =>
      show Writes _ (.scalar (restored? (.real x)) :: ts)
      by_cases hx : x.isFinite = true
      · have hchars : scalarChars (.real x) = x.numeral.chars := by
          simp [scalarChars, hx, x.numeral_chars]
        have hvalue : x.numeral.value.toOption = restored? (.real x) := by
          simp [restored?, Double.restored?, hx]
        rw [hchars, ← hvalue]
        exact writes_numeral h x.numeral_wellFormed hd
      · have hchars : scalarChars (.real x) = ['n', 'u', 'l', 'l'] := by
          simp [scalarChars, hx]
        have hvalue : some .null = restored? (.real x) := by
          simp [restored?, Double.restored?, hx]
        rw [hchars, ← hvalue]
        exact .null h
  | text t => exact writes_textChars h t

end

/-! ## Documents -/

open FlowArtifact.Json.Tree (itemTokens fieldTokens ofItems ofFields)

variable {P : Scalar → Prop}

theorem delimited_compactItems (items : List Doc) (text : List Char) :
    Delimited (compactItems false items ++ text) := by
  cases items <;> simp [compactItems, Delimited]

theorem delimited_compactFields (fields : List (Head × Doc)) (text : List Char) :
    Delimited (compactFields false fields ++ text) := by
  cases fields <;> simp [compactFields, Delimited]

mutual
theorem writes_compactChars {text : List Char} {ts : List Token} (h : Writes text ts)
    (ht : Delimited text) :
    (d : Doc) → d.Over P → Writes (compactChars d ++ text) ((Tree.ofDoc d).tokens ts)
  | .scalar s, _ => writes_scalarChars h s ht
  | .list items, hd => .openList (writes_compactItems h true items hd)
  | .record fields, hd => .openRecord (writes_compactFields h true fields hd)

theorem writes_compactItems {text : List Char} {ts : List Token} (h : Writes text ts)
    (isFirst : Bool) : (items : List Doc) → Doc.OverItems P items →
      Writes (compactItems isFirst items ++ text) (itemTokens isFirst ts (ofItems items))
  | [], _ => .closeList h
  | d :: rest, hd => by
    have hitem : Writes (compactChars d ++ (compactItems false rest ++ text))
        ((Tree.ofDoc d).tokens (itemTokens false ts (ofItems rest))) :=
      writes_compactChars (writes_compactItems h false rest hd.2)
        (delimited_compactItems rest text) d hd.1
    unfold compactItems ofItems itemTokens
    cases isFirst with
    | false => simpa using Writes.comma hitem
    | true => simpa using hitem

theorem writes_compactFields {text : List Char} {ts : List Token} (h : Writes text ts)
    (isFirst : Bool) : (fields : List (Head × Doc)) → Doc.OverFields P fields →
      Writes (compactFields isFirst fields ++ text) (fieldTokens isFirst ts (ofFields fields))
  | [], _ => .closeRecord h
  | (key, d) :: rest, hd => by
    obtain ⟨⟨name, rfl⟩, hvalue, hrest⟩ := hd
    have hfield : Writes (textChars name ++ (':' :: (compactChars d ++
          (compactFields false rest ++ text))))
        (.text (some name) :: .colon ::
          (Tree.ofDoc d).tokens (fieldTokens false ts (ofFields rest))) :=
      writes_textChars (.colon (writes_compactChars (writes_compactFields h false rest hrest)
        (delimited_compactFields rest text) d hvalue)) name
    unfold compactFields ofFields fieldTokens
    cases isFirst with
    | false => simpa [keyChars, Head.name?] using Writes.comma hfield
    | true => simpa [keyChars, Head.name?] using hfield
end

theorem delimited_prettyItems (level : Nat) (items : List Doc) (text : List Char) :
    Delimited (prettyItems level items ++ text) := by
  cases items <;> simp [prettyItems, lineChars, Delimited]

theorem delimited_prettyFields (level : Nat) (fields : List (Head × Doc)) (text : List Char) :
    Delimited (prettyFields level fields ++ text) := by
  cases fields <;> simp [prettyFields, lineChars, Delimited]

mutual
theorem writes_prettyChars {text : List Char} {ts : List Token} (h : Writes text ts)
    (ht : Delimited text) (level : Nat) :
    (d : Doc) → d.Over P → Writes (prettyChars level d ++ text) ((Tree.ofDoc d).tokens ts)
  | .scalar s, _ => writes_scalarChars h s ht
  | .list [], _ => .openList (.closeList h)
  | .list (d :: rest), hd => by
    have hitem : Writes (prettyChars (level + 1) d ++ (prettyItems level rest ++ text))
        ((Tree.ofDoc d).tokens (itemTokens false ts (ofItems rest))) :=
      writes_prettyChars (writes_prettyItems h level rest hd.2)
        (delimited_prettyItems level rest text) (level + 1) d hd.1
    unfold prettyChars Tree.ofDoc Tree.tokens ofItems itemTokens
    simpa using .openList (writes_lineChars hitem (level + 1))
  | .record [], _ => .openRecord (.closeRecord h)
  | .record ((key, d) :: rest), hd => by
    obtain ⟨⟨name, rfl⟩, hvalue, hrest⟩ := hd
    have hitem : Writes (prettyChars (level + 1) d ++ (prettyFields level rest ++ text))
        ((Tree.ofDoc d).tokens (fieldTokens false ts (ofFields rest))) :=
      writes_prettyChars (writes_prettyFields h level rest hrest)
        (delimited_prettyFields level rest text) (level + 1) d hvalue
    unfold prettyChars Tree.ofDoc Tree.tokens ofFields fieldTokens
    simpa [keyChars, Head.name?] using .openRecord (writes_lineChars
      (writes_textChars (.colon (.blank rfl hitem)) name) (level + 1))

theorem writes_prettyItems {text : List Char} {ts : List Token} (h : Writes text ts)
    (level : Nat) : (items : List Doc) → Doc.OverItems P items →
      Writes (prettyItems level items ++ text) (itemTokens false ts (ofItems items))
  | [], _ => by
    unfold prettyItems ofItems itemTokens
    simpa using writes_lineChars (.closeList h) level
  | d :: rest, hd => by
    have hitem : Writes (prettyChars (level + 1) d ++ (prettyItems level rest ++ text))
        ((Tree.ofDoc d).tokens (itemTokens false ts (ofItems rest))) :=
      writes_prettyChars (writes_prettyItems h level rest hd.2)
        (delimited_prettyItems level rest text) (level + 1) d hd.1
    unfold prettyItems ofItems itemTokens
    simpa using Writes.comma (writes_lineChars hitem (level + 1))

theorem writes_prettyFields {text : List Char} {ts : List Token} (h : Writes text ts)
    (level : Nat) : (fields : List (Head × Doc)) → Doc.OverFields P fields →
      Writes (prettyFields level fields ++ text) (fieldTokens false ts (ofFields fields))
  | [], _ => by
    unfold prettyFields ofFields fieldTokens
    simpa using writes_lineChars (.closeRecord h) level
  | (key, d) :: rest, hd => by
    obtain ⟨⟨name, rfl⟩, hvalue, hrest⟩ := hd
    have hitem : Writes (prettyChars (level + 1) d ++ (prettyFields level rest ++ text))
        ((Tree.ofDoc d).tokens (fieldTokens false ts (ofFields rest))) :=
      writes_prettyChars (writes_prettyFields h level rest hrest)
        (delimited_prettyFields level rest text) (level + 1) d hvalue
    unfold prettyFields ofFields fieldTokens
    simpa [keyChars, Head.name?] using Writes.comma (writes_lineChars
      (writes_textChars (.colon (.blank rfl hitem)) name) (level + 1))
end

/-- The text of a document is JSON and says it, in either layout. -/
theorem denotes_written {d : Doc} (hd : d.Over P) (indented : Bool) :
    Denotes (if indented then pretty d else compact d) (Tree.ofDoc d) := by
  have hend : Delimited [] := by simp [Delimited]
  have hcompact := writes_compactChars .finish hend d hd
  have hpretty := writes_prettyChars .finish hend 0 d hd
  cases indented with
  | false => simpa [Denotes, compact] using hcompact
  | true => simpa [Denotes, pretty] using hpretty

end FlowArtifact.Json
