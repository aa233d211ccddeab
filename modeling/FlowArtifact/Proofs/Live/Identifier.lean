import FlowArtifact.Live.Identifier
import Mathlib.Data.List.Basic

/-!
# Written identifiers

A text is read as an identifier by its first `:`, so a namespace holds none and a
name may hold some.  A text without `:` is read just as it is with the default
namespace in front, and this whole text is what the identifier is written as.  So an
identifier is read again from the text it is written as, and two texts stand for one
identifier if they are the same once the default namespace is put in front.
-/

namespace FlowArtifact.Identifier

structure WellFormed (i : Identifier) : Prop where
  namespace_ne : i.namespace ≠ ""
  namespace_clean : ':' ∉ i.namespace.toList
  name_ne : i.name ≠ ""

/-- A text with its namespace, which is the default one if the text names none. -/
def whole (s : String) : String := if ':' ∈ s.toList then s else "mule:" ++ s

theorem toList_text (i : Identifier) :
    i.text.toList = i.namespace.toList ++ ':' :: i.name.toList := by
  simp [text]

/-- A text with a `:` is an identifier written out, up to the first `:` and behind it. -/
theorem exists_eq_text {s : String} (h : ':' ∈ s.toList) :
    ∃ i : Identifier, ':' ∉ i.namespace.toList ∧ s = i.text := by
  obtain ⟨before, after, hs, hbefore⟩ := List.eq_append_cons_of_mem h
  refine ⟨⟨String.ofList before, String.ofList after⟩, by simpa using hbefore, ?_⟩
  apply String.toList_injective
  rw [toList_text, hs, String.toList_ofList, String.toList_ofList]

theorem text_inj {i j : Identifier} (hi : ':' ∉ i.namespace.toList)
    (hj : ':' ∉ j.namespace.toList) (h : i.text = j.text) : i = j := by
  have hlists : i.namespace.toList ++ ':' :: i.name.toList =
      j.namespace.toList ++ ':' :: j.name.toList := by
    rw [← toList_text, ← toList_text, h]
  have hnamespace : i.namespace.toList = j.namespace.toList := by
    have hcut := congrArg (fun l => (Text.cut ':' l).1) hlists
    simpa only [Text.cut_append_cons hi, Text.cut_append_cons hj] using hcut
  have hname : i.name.toList = j.name.toList := by
    rw [hnamespace] at hlists
    exact List.tail_eq_of_cons_eq (List.append_cancel_left hlists)
  cases i
  cases j
  congr
  · exact String.toList_injective hnamespace
  · exact String.toList_injective hname

theorem whole_of_notMem {s : String} (h : ':' ∉ s.toList) : whole s = text ⟨defaultNamespace, s⟩ :=
  if_neg h

theorem notMem_defaultNamespace : ':' ∉ defaultNamespace.toList := by decide

theorem defaultNamespace_ne : defaultNamespace ≠ "" := by decide

/-! ## Reading -/

theorem parse_of_notMem {s : String} (h : ':' ∉ s.toList) :
    parse s = if s = "" then .error (.invalidStructure s .badIdentifier)
      else .ok ⟨defaultNamespace, s⟩ := by
  simp only [parse, Text.cut_eq_of_notMem h, defaultNamespace_ne, false_or]

theorem parse_text {i : Identifier} (h : ':' ∉ i.namespace.toList) :
    parse i.text = if i.namespace = "" ∨ i.name = ""
      then .error (.invalidStructure i.text .badIdentifier) else .ok i := by
  have hcut : Text.cut ':' i.text.toList = (i.namespace.toList,
      (Text.cut ':' i.name.toList).1 :: (Text.cut ':' i.name.toList).2) := by
    rw [toList_text, Text.cut_append_cons h]
  simp only [parse, hcut, Text.glue_cut, String.ofList_toList]

theorem parse_text_eq_ok_iff {i j : Identifier} (h : ':' ∉ i.namespace.toList) :
    parse i.text = .ok j ↔ i.WellFormed ∧ j = i := by
  rw [parse_text h]
  by_cases hempty : i.namespace = "" ∨ i.name = ""
  · rw [if_pos hempty]
    refine iff_of_false nofun ?_
    rintro ⟨hi, -⟩
    exact hempty.elim hi.namespace_ne hi.name_ne
  · rw [if_neg hempty]
    obtain ⟨hnamespace, hname⟩ := not_or.1 hempty
    have hi : i.WellFormed := ⟨hnamespace, h, hname⟩
    exact ⟨fun hj => ⟨hi, (Except.ok.inj hj).symm⟩, fun hj => congrArg Except.ok hj.2.symm⟩

/-- The default namespace may be left out. -/
theorem parse_eq_ok_iff_whole {s : String} {i : Identifier} :
    parse s = .ok i ↔ parse (whole s) = .ok i := by
  by_cases h : ':' ∈ s.toList
  · rw [whole, if_pos h]
  · rw [whole_of_notMem h, parse_text notMem_defaultNamespace, parse_of_notMem h]
    by_cases hempty : s = "" <;> simp [hempty, defaultNamespace_ne]

/-- Reading is the inverse of writing, up to the default namespace. -/
theorem parse_eq_ok_iff {s : String} {i : Identifier} :
    parse s = .ok i ↔ i.WellFormed ∧ i.text = whole s := by
  obtain ⟨j, hj, hs⟩ : ∃ j : Identifier, ':' ∉ j.namespace.toList ∧ whole s = j.text := by
    by_cases h : ':' ∈ s.toList
    · rw [whole, if_pos h]
      exact exists_eq_text h
    · exact ⟨_, notMem_defaultNamespace, whole_of_notMem h⟩
  rw [parse_eq_ok_iff_whole, hs, parse_text_eq_ok_iff hj]
  constructor
  · rintro ⟨hi, rfl⟩
    exact ⟨hi, rfl⟩
  · rintro ⟨hi, htext⟩
    obtain rfl := text_inj hi.namespace_clean hj htext
    exact ⟨hi, rfl⟩

/-- An identifier is read from its text if nothing is missing on either side of the first `:`. -/
theorem exists_parse_eq_ok_iff {s : String} :
    (∃ i, parse s = .ok i) ↔ s ≠ "" ∧ ∀ before after, s = before ++ ":" ++ after →
      ':' ∉ before.toList → before ≠ "" ∧ after ≠ "" := by
  by_cases h : ':' ∈ s.toList
  · obtain ⟨j, hj, rfl⟩ := exists_eq_text h
    simp only [parse_text_eq_ok_iff hj, exists_eq_right]
    constructor
    · intro hwell
      refine ⟨?_, ?_⟩
      · intro hempty
        simp [hempty] at h
      · intro before after htext hbefore
        obtain rfl := text_inj hj (j := ⟨before, after⟩) hbefore htext
        exact ⟨hwell.namespace_ne, hwell.name_ne⟩
    · rintro ⟨-, hhalves⟩
      obtain ⟨hnamespace, hname⟩ := hhalves j.namespace j.name rfl hj
      exact ⟨hnamespace, hj, hname⟩
  · have hvacuous : ∀ before after, s = before ++ ":" ++ after →
        ':' ∉ before.toList → before ≠ "" ∧ after ≠ "" := by
      rintro before after rfl
      simp at h
    rw [and_iff_left hvacuous, parse_of_notMem h]
    by_cases hempty : s = "" <;> simp [hempty]

theorem eq_badIdentifier_of_parse_eq_error {s : String} {e : Error} (h : parse s = .error e) :
    e = .invalidStructure s .badIdentifier := by
  by_cases hcolon : ':' ∈ s.toList
  · obtain ⟨i, hi, rfl⟩ := exists_eq_text hcolon
    rw [parse_text hi] at h
    split at h
    · exact (Except.error.inj h).symm
    · cases h
  · rw [parse_of_notMem hcolon] at h
    split at h
    · exact (Except.error.inj h).symm
    · cases h

theorem whole_eq_whole_iff {s t : String} :
    whole s = whole t ↔ s = t ∨ (':' ∉ s.toList ∧ t = "mule:" ++ s) ∨
      (':' ∉ t.toList ∧ s = "mule:" ++ t) := by
  have hprefixed (s : String) : ':' ∈ ("mule:" ++ s).toList := by simp
  unfold whole
  by_cases hs : ':' ∈ s.toList
  · by_cases ht : ':' ∈ t.toList
    · simp [hs, ht]
    · have hne : s ≠ t := by
        rintro rfl
        exact ht hs
      simp [hs, ht, hne]
  · by_cases ht : ':' ∈ t.toList
    · have hne : s ≠ t := by
        rintro rfl
        exact hs ht
      simp [hs, ht, hne, eq_comm]
    · have hst : t ≠ "mule:" ++ s := by
        rintro rfl
        exact ht (hprefixed s)
      have hts : s ≠ "mule:" ++ t := by
        rintro rfl
        exact hs (hprefixed t)
      simp [hs, ht, hst, hts]

/-- The identifiers that are read, the texts they are read from, and the texts they are written as:
nothing may be missing on either side of the first `:`, the default namespace is put in front where
there is none, the text that is written is read to the same identifier, and only texts that differ
in the default namespace stand for the same.  Every other text is refused. -/
theorem parse_by_first_colon (s : String) :
    ((∃ i, parse s = .ok i) ↔ s ≠ "" ∧ ∀ before after, s = before ++ ":" ++ after →
      ':' ∉ before.toList → before ≠ "" ∧ after ≠ "") ∧
    (∀ e, parse s = .error e → e = .invalidStructure s .badIdentifier) ∧
    (∀ i, parse s = .ok i → ':' ∉ i.namespace.toList ∧
      i.text = (if ':' ∈ s.toList then s else "mule:" ++ s) ∧ parse i.text = .ok i) ∧
    ∀ t i j, parse s = .ok i → parse t = .ok j →
      (i = j ↔ s = t ∨ (':' ∉ s.toList ∧ t = "mule:" ++ s) ∨
        (':' ∉ t.toList ∧ s = "mule:" ++ t)) := by
  refine ⟨exists_parse_eq_ok_iff, fun e => eq_badIdentifier_of_parse_eq_error, ?_, ?_⟩
  · intro i hi
    obtain ⟨hwell, htext⟩ := parse_eq_ok_iff.1 hi
    exact ⟨hwell.namespace_clean, htext,
      (parse_text_eq_ok_iff hwell.namespace_clean).2 ⟨hwell, rfl⟩⟩
  · intro t i j hi hj
    obtain ⟨hwell, htext⟩ := parse_eq_ok_iff.1 hi
    obtain ⟨hwell', htext'⟩ := parse_eq_ok_iff.1 hj
    rw [← whole_eq_whole_iff, ← htext, ← htext']
    exact ⟨congrArg text, text_inj hwell.namespace_clean hwell'.namespace_clean⟩

/-- A name may hold `:`, and the default namespace may be written or left out. -/
theorem parse_by_first_colon_of_names :
    parse "http:a:b" = .ok ⟨"http", "a:b"⟩ ∧ text ⟨"http", "a:b"⟩ = "http:a:b" ∧
      parse "logger" = .ok ⟨"mule", "logger"⟩ ∧ parse "mule:logger" = .ok ⟨"mule", "logger"⟩ := by
  have hhttp : parse "http:a:b" = .ok ⟨"http", "a:b"⟩ := by decide +kernel
  have hlogger : parse "logger" = .ok ⟨"mule", "logger"⟩ := by decide +kernel
  obtain ⟨-, -, hread, -⟩ := parse_by_first_colon "http:a:b"
  obtain ⟨-, -, hreadLogger, -⟩ := parse_by_first_colon "logger"
  exact ⟨hhttp, (hread _ hhttp).2.1, hlogger, (hreadLogger _ hlogger).2.2⟩

end FlowArtifact.Identifier
