import FlowArtifact.Proofs.Value.Document
import FlowArtifact.Serialization

/-!
# CDATA sections

A text is a CDATA section if all of it is wrapped, whatever stands inside the
wrapper.  Finding a section and writing one are inverse: a value is found again in
its written form, since a plain text is never wrapped and a section is written in
one wrapper, which is the one that is taken away.
-/

namespace FlowArtifact

namespace Cdata

theorem wrap_eq (text : String) : wrap text = "<![CDATA[" ++ text ++ "]]>" := by
  rw [wrap, String.ofList_append, String.ofList_append, String.ofList_toList]
  rfl

theorem unwrap?_eq_some_iff {text inner : String} :
    unwrap? text = some inner ↔ text = wrap inner := by
  simp only [unwrap?, Option.bind_eq_bind, Option.bind_eq_some_iff, Text.dropStart?_eq_some_iff,
    Text.dropEnd?_eq_some_iff]
  constructor
  · rintro ⟨rest, htext, cs, rfl, hinner⟩
    cases hinner
    rw [wrap, String.toList_ofList, List.append_assoc, ← htext, String.ofList_toList]
  · rintro rfl
    refine ⟨inner.toList ++ closing, ?_, inner.toList, rfl, ?_⟩
    · rw [wrap, String.toList_ofList, List.append_assoc]
    · simp

theorem strip_wrap (text : String) : strip (wrap text) = text := by
  have hstart : Text.dropStart? opening (wrap text).toList = some (text.toList ++ closing) :=
    Text.dropStart?_eq_some_iff.2 (by rw [wrap, String.toList_ofList, List.append_assoc])
  have hstop : Text.dropEnd? closing (text.toList ++ closing) = some text.toList :=
    Text.dropEnd?_eq_some_iff.2 rfl
  rw [strip, hstart, Option.getD_some, hstop, Option.getD_some, String.ofList_toList]

end Cdata

namespace Simple

theorem ofText_wrap (text : String) : ofText (Cdata.wrap text) = verbatim text := by
  have hinner := Cdata.unwrap?_eq_some_iff.2 (rfl : Cdata.wrap text = Cdata.wrap text)
  unfold ofText
  split
  · rename_i inner hfound
    rw [hinner] at hfound
    rw [Option.some.inj hfound]
  · rename_i hnone
    rw [hinner] at hnone
    cases hnone

theorem ofText_of_not_wrapped {text : String} (h : ¬∃ inner, text = Cdata.wrap inner) :
    (ofText text).text = text ∧ (ofText text).isCdata = false := by
  unfold ofText
  split
  · rename_i inner hinner
    exact absurd ⟨inner, Cdata.unwrap?_eq_some_iff.1 hinner⟩ h
  · exact ⟨rfl, rfl⟩

theorem cdata_wrap (text : String) : cdata (Cdata.wrap text) = verbatim text := by
  rw [cdata, Cdata.strip_wrap]

theorem ofText_display (s : Simple) : ofText s.display = s := by
  obtain ⟨text, isCdata, hplain⟩ := s
  cases isCdata with
  | false => exact ofText_of_plain rfl
  | true => exact ofText_wrap text

end Simple

namespace Value

def IsCdata (v : Value) (text : String) : Prop :=
  ∃ s, v.asSimple? = some s ∧ s.isCdata = true ∧ s.text = text

def IsPlain (v : Value) (text : String) : Prop :=
  ∃ s, v.asSimple? = some s ∧ s.isCdata = false ∧ s.text = text

theorem isCdata_leaf {s : Simple} {text : String} :
    IsCdata (.leaf s) text ↔ s.isCdata = true ∧ s.text = text := by
  simp [IsCdata, asSimple?]

theorem isPlain_leaf {s : Simple} {text : String} :
    IsPlain (.leaf s) text ↔ s.isCdata = false ∧ s.text = text := by
  simp [IsPlain, asSimple?]

theorem isCdata_simple_wrap (u : String) : IsCdata (simple (Cdata.wrap u)) u := by
  rw [simple, Simple.ofText_wrap, isCdata_leaf]
  exact ⟨rfl, rfl⟩

theorem isPlain_simple {t : String} (h : ¬∃ u, t = Cdata.wrap u) : IsPlain (simple t) t := by
  obtain ⟨htext, hflag⟩ := Simple.ofText_of_not_wrapped h
  exact isPlain_leaf.2 ⟨hflag, htext⟩

theorem exists_isCdata_simple_iff {t : String} :
    (∃ u, IsCdata (simple t) u) ↔ ∃ u, t = Cdata.wrap u := by
  constructor
  · rintro ⟨u, hu⟩
    refine Classical.byContradiction fun h => ?_
    obtain ⟨hflag, -⟩ := isPlain_leaf.1 (isPlain_simple h)
    rw [(isCdata_leaf.1 hu).1] at hflag
    cases hflag
  · rintro ⟨u, rfl⟩
    exact ⟨u, isCdata_simple_wrap u⟩

theorem simple_wrap (u : String) : simple (Cdata.wrap u) = cdata (Cdata.wrap u) := by
  rw [simple, cdata, Simple.ofText_wrap, Simple.cdata_wrap]

theorem display_leaf (s : Simple) : display (.leaf s) = s.display := Nest.fold_leaf _ _ _ s

theorem simple_display_leaf (s : Simple) : simple (display (.leaf s)) = .leaf s := by
  rw [display_leaf, simple, Simple.ofText_display]

theorem simple_display_of_kind {v : Value} (h : v.kind = .simple) : simple v.display = v := by
  rw [← Nest.toNest_view v] at h ⊢
  cases hview : v.view with
  | leaf s => exact simple_display_leaf s
  | list items => simp [hview, Nest.View.toNest, kind] at h
  | record typeId parameters => simp [hview, Nest.View.toNest, kind] at h

/-- A text is a CDATA section exactly if it is a wrapped one, with the text inside the wrapper, and
is plain otherwise.  A simple value, whatever it was made from, is the value of its written form. -/
theorem simple_detects_wrapper :
    (∀ t : String,
      ((∃ u, IsCdata (simple t) u) ↔ ∃ u, t = "<![CDATA[" ++ u ++ "]]>") ∧
      (∀ u, t = "<![CDATA[" ++ u ++ "]]>" → IsCdata (simple t) u ∧ simple t = cdata t) ∧
      ((¬∃ u, t = "<![CDATA[" ++ u ++ "]]>") → IsPlain (simple t) t)) ∧
    (∀ u : String, IsCdata (cdata ("<![CDATA[" ++ u ++ "]]>")) u) ∧
    (∀ t : String, simple (simple t).display = simple t ∧ simple (cdata t).display = cdata t) ∧
    (∀ (format : Format) (text : String) (v : Value), read format text = .ok v →
      v.kind = .simple → simple v.display = v) ∧
    ∀ v : Value, v.kind = .simple → simple v.display = v := by
  simp only [← Cdata.wrap_eq]
  refine ⟨fun t => ⟨exists_isCdata_simple_iff, ?_, isPlain_simple⟩, fun u => ?_, fun t => ?_,
    fun _ _ _ _ => simple_display_of_kind, fun _ => simple_display_of_kind⟩
  · rintro u rfl
    exact ⟨isCdata_simple_wrap u, simple_wrap u⟩
  · rw [← simple_wrap]
    exact isCdata_simple_wrap u
  · exact ⟨simple_display_leaf _, simple_display_leaf _⟩

end Value

end FlowArtifact
