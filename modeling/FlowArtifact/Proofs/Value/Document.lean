import FlowArtifact.Proofs.Doc
import FlowArtifact.Proofs.Doc.Fields
import FlowArtifact.Proofs.Nest
import FlowArtifact.Value.Document

/-!
# Values and their documents

The document of a value holds texts only, nests at most two levels for each level
of the value, and is read back to the value.  A plain text is read as it is: it
is never a wrapped CDATA section, which would be unwrapped a second time.
-/

namespace FlowArtifact

theorem Simple.ofText_of_plain {s : Simple} (h : s.isCdata = false) : ofText s.text = s := by
  obtain ⟨text, isCdata, hplain⟩ := s
  obtain rfl : isCdata = false := h
  unfold ofText
  split
  · rename_i inner hinner
    rw [hplain rfl] at hinner
    cases hinner
  · rfl

namespace Value

theorem toDoc_leaf (s : Simple) : toDoc (.leaf s) =
    if s.isCdata then .named [("type", .text "cdata"), ("value", .text s.text)]
    else .text s.text := Nest.fold_leaf _ _ _ s

theorem toDoc_list (items : List Value) : toDoc (Nest.list items) = .list (items.map toDoc) :=
  Nest.fold_list _ _ _ items

theorem toDoc_record (typeId : Option String) (parameters : NameMap Value) :
    toDoc (.record typeId parameters) =
      .named (("type", .text "object") :: (typeId.toList.map fun t => ("typeId", .text t)) ++
        [("parameters", .named (parameters.map toDoc).entries)]) :=
  Nest.fold_record _ _ _ typeId parameters

theorem over_toDoc {P : Scalar → Prop} (hP : ∀ t, P (.text t)) (v : Value) : v.toDoc.Over P := by
  induction v using Nest.induct with
  | leaf s =>
      rw [toDoc_leaf]
      cases s.isCdata <;> simp [hP]
  | list items ih =>
      rw [toDoc_list, Doc.over_list, List.forall_mem_map]
      exact ih
  | record typeId parameters ih =>
      have hvalues : (Doc.named (parameters.map toDoc).entries).Over P := by
        rw [Doc.over_named, NameMap.entries_map, List.forall_mem_map]
        exact ih
      rw [toDoc_record]
      cases typeId <;> simpa [hP] using hvalues

theorem nesting_toDoc_le {v : Value} {n : Nat} (h : v.depth ≤ n) : v.toDoc.nesting ≤ 2 * n := by
  induction v using Nest.induct generalizing n with
  | leaf s =>
      rw [Nest.depth_leaf] at h
      obtain ⟨m, hm⟩ : ∃ m, 2 * n = m + 1 := ⟨2 * n - 1, by omega⟩
      rw [toDoc_leaf, hm]
      cases s.isCdata <;> simp
  | list items ih =>
      have hpos := (Nest.list items : Value).depth_pos
      obtain ⟨m, rfl⟩ : ∃ m, n = m + 1 := ⟨n - 1, by omega⟩
      have hitems := Nest.depth_list_le_iff.1 h
      rw [toDoc_list, show 2 * (m + 1) = 2 * m + 1 + 1 by omega, Doc.nesting_list_le,
        List.forall_mem_map]
      intro item hitem
      exact Nat.le_succ_of_le (ih item hitem (hitems item hitem))
  | record typeId parameters ih =>
      have hpos := (Nest.record typeId parameters : Value).depth_pos
      obtain ⟨m, rfl⟩ : ∃ m, n = m + 1 := ⟨n - 1, by omega⟩
      have hparameters := Nest.depth_record_le_iff.1 h
      have hvalues : (Doc.named (parameters.map toDoc).entries).nesting ≤ 2 * m + 1 := by
        rw [Doc.nesting_named_le, NameMap.entries_map, List.forall_mem_map]
        exact fun e he => ih e he (hparameters e he)
      rw [toDoc_record, show 2 * (m + 1) = 2 * m + 1 + 1 by omega, Doc.nesting_named_le]
      cases typeId <;> simpa using hvalues

/-! ## Reading a value back -/

theorem ofItems?_map {items : List Value} (h : ∀ v ∈ items, ofDoc? v.toDoc = some v) :
    ofItems? (items.map toDoc) = some items := by
  induction items with
  | nil => rfl
  | cons v rest ih =>
      obtain ⟨hv, hrest⟩ := List.forall_mem_cons.1 h
      simp [ofItems?, hv, ih hrest]

theorem entries?_named (l : List (String × Value)) (found m : NameMap Value)
    (hread : ∀ e ∈ l, ofDoc? e.2.toDoc = some e.2) (hm : m.entries = found.entries ++ l) :
    entries? found (l.map fun e => (.scalar (.text e.1), e.2.toDoc)) = some m := by
  induction l generalizing found with
  | nil =>
      have heq : found = m := NameMap.ext (by simpa using hm.symm)
      rw [heq]
      rfl
  | cons e rest ih =>
      obtain ⟨he, hrest⟩ := List.forall_mem_cons.1 hread
      simp only [List.map_cons, entries?, Head.name?, he, Option.bind_eq_bind,
        Option.bind_some]
      exact ih _ hrest (NameMap.insert_eq_of_entries hm)

theorem parameters?_named {m : NameMap Value} (h : ∀ e ∈ m.entries, ofDoc? e.2.toDoc = some e.2) :
    parameters? (.named (m.map toDoc).entries) = some m := by
  have hentries := entries?_named m.entries .empty m h rfl
  simpa [parameters?, Doc.named, Function.comp_def] using hentries

theorem ofDoc?_toDoc_leaf (s : Simple) : ofDoc? (toDoc (.leaf s)) = some (.leaf s) := by
  rw [toDoc_leaf]
  cases hs : s.isCdata with
  | false => rw [if_neg (by decide), Doc.text, ofDoc?, simple, Simple.ofText_of_plain hs]
  | true =>
      have hverbatim : Simple.verbatim s.text = s := by
        cases s
        simp_all [Simple.verbatim]
      have htype : typeField?
          [(typeKey, .text "cdata"), (.scalar (.text "value"), .text s.text)] =
            some .cdata := rfl
      have hfields : cdataField? none
          [(typeKey, .text "cdata"), (.scalar (.text "value"), .text s.text)] =
            some s.text := rfl
      rw [if_pos rfl]
      show ofDoc? (.record
        [(typeKey, .text "cdata"), (.scalar (.text "value"), .text s.text)]) = _
      rw [ofDoc?, htype]
      simp [hfields, hverbatim]

theorem ofDoc?_toDoc_record (typeId : Option String) {parameters : NameMap Value}
    (h : ∀ e ∈ parameters.entries, ofDoc? e.2.toDoc = some e.2) :
    ofDoc? (toDoc (.record typeId parameters)) = some (.record typeId parameters) := by
  have hparameters := parameters?_named h
  have htype (known : List String) : fieldName? known typeKey = some none := rfl
  have hid : fieldName? ["typeId", "parameters"] (.scalar (.text "typeId")) =
    some (some "typeId") := rfl
  have hvalues : fieldName? ["typeId", "parameters"] (.scalar (.text "parameters")) =
    some (some "parameters") := rfl
  rw [toDoc_record]
  generalize Doc.named (parameters.map toDoc).entries = d at hparameters
  cases typeId with
  | none =>
      have hobject : typeField?
          [(typeKey, .text "object"), (.scalar (.text "parameters"), d)] =
            some .object := rfl
      show ofDoc? (.record
        [(typeKey, .text "object"), (.scalar (.text "parameters"), d)]) = _
      rw [ofDoc?, hobject]
      simp [objectFields?, htype, hvalues, hparameters]
  | some t =>
      have hobject : typeField? [(typeKey, .text "object"),
          (.scalar (.text "typeId"), .text t), (.scalar (.text "parameters"), d)] =
            some .object := rfl
      show ofDoc? (.record [(typeKey, .text "object"),
        (.scalar (.text "typeId"), .text t), (.scalar (.text "parameters"), d)]) = _
      rw [ofDoc?, hobject]
      simp [objectFields?, htype, hid, hvalues, hparameters, typeId?, Doc.text]

theorem ofDoc?_toDoc (v : Value) : ofDoc? v.toDoc = some v := by
  induction v using Nest.induct with
  | leaf s => exact ofDoc?_toDoc_leaf s
  | list items ih =>
      rw [toDoc_list, ofDoc?, ofItems?_map ih]
      rfl
  | record typeId parameters ih => exact ofDoc?_toDoc_record typeId ih

theorem ofDoc_toDoc (v : Value) : ofDoc v.toDoc = .ok v := by
  rw [ofDoc, ofDoc?_toDoc]

end Value

theorem ObjectValue.ofDoc_toDoc (o : ObjectValue) : ofDoc o.toDoc = .ok o := by
  unfold ofDoc toDoc toValue
  rw [Value.ofDoc_toDoc, ok_bind, Value.asObject?, Nest.view_record]
  rfl

end FlowArtifact
