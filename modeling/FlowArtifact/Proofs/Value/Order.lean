import FlowArtifact.Proofs.Doc.Order
import FlowArtifact.Proofs.Value.Documented

/-!
# Values and the order of fields

A value is read from a document whatever the order of the fields is: its type may
come first or last, and its parameters are put in order as they are read.  The
same holds of data without a schema.
-/

namespace FlowArtifact

open Doc (Reordered ReorderedItems ReorderedFields keyed under)

namespace Doc

theorem under_keyed (name : String) (l : List (String × Doc)) :
    under name (keyed l) = (l.filter (·.1 = name)).map (·.2) := by
  simp [under, keyed, List.filter_map, Function.comp_def]

/-- No name comes twice, so there is nothing to reorder among the fields of one name. -/
theorem under_perm {l m : List (String × Doc)} (hperm : l.Perm m)
    (hnames : (l.map (·.1)).Nodup) (name : String) :
    under name (keyed l) = under name (keyed m) := by
  have hlength : (l.filter (·.1 = name)).length ≤ 1 := by
    have hcount := List.nodup_iff_count_le_one.1 hnames name
    rw [List.count_eq_countP, List.countP_map, List.countP_eq_length_filter] at hcount
    exact hcount
  have hfilter : (l.filter (·.1 = name)).Perm (m.filter (·.1 = name)) := hperm.filter _
  rw [under_keyed, under_keyed]
  revert hlength hfilter
  generalize l.filter (·.1 = name) = found
  intro hlength hfilter
  rcases found with - | ⟨e, - | ⟨f, rest⟩⟩
  · rw [List.nil_perm.1 hfilter]
  · rw [List.singleton_perm.1 hfilter]
  · simp at hlength

/-- Nothing stands under a name, or a document does, between fields with other names. -/
theorem under_eq_nil_or (name : String) {l : List (String × Doc)}
    (hnames : (l.map (·.1)).Nodup) :
    (under name (keyed l) = [] ∧ ∀ e ∈ l, e.1 ≠ name) ∨
      ∃ pre d post, l = pre ++ (name, d) :: post ∧ under name (keyed l) = [d] ∧
        l.filter (·.1 ≠ name) = pre ++ post ∧ ∀ e ∈ pre ++ post, e.1 ≠ name := by
  by_cases hmem : name ∈ l.map (·.1)
  · obtain ⟨⟨name, d⟩, he, rfl⟩ := List.mem_map.1 hmem
    obtain ⟨pre, post, rfl⟩ := List.append_of_mem he
    rw [List.map_append, List.map_cons, List.nodup_middle, ← List.map_append,
      List.nodup_cons] at hnames
    have hothers : ∀ e ∈ pre ++ post, e.1 ≠ name := fun e he heq =>
      hnames.1 (List.mem_map.2 ⟨e, he, heq⟩)
    obtain ⟨hpre, hpost⟩ := List.forall_mem_append.1 hothers
    refine .inr ⟨pre, d, post, rfl, ?_, ?_, hothers⟩
    · rw [under_keyed, List.filter_append, List.filter_cons_of_pos (by simp),
        List.filter_eq_nil_iff.2 (by simpa using hpre),
        List.filter_eq_nil_iff.2 (by simpa using hpost)]
      rfl
    · rw [List.filter_append, List.filter_cons_of_neg (by simp),
        List.filter_eq_self.2 (by simpa using hpre), List.filter_eq_self.2 (by simpa using hpost)]
  · have hnone : ∀ e ∈ l, e.1 ≠ name := fun e he heq => hmem (List.mem_map.2 ⟨e, he, heq⟩)
    refine .inl ⟨?_, hnone⟩
    rw [under_keyed, List.filter_eq_nil_iff.2 (by simpa using hnone)]
    rfl

theorem under_congr {p : Doc → Doc → Prop} {l m : List (String × Doc)}
    (h : List.Forall₂ (fun e f => e.1 = f.1 ∧ p e.2 f.2) l m) (name : String) :
    List.Forall₂ p (under name (keyed l)) (under name (keyed m)) := by
  rw [under_keyed, under_keyed]
  induction h with
  | nil => exact .nil
  | @cons e f l m hfield _ ih =>
      rw [List.filter_cons, List.filter_cons, hfield.1]
      split
      · exact .cons hfield.2 ih
      · exact ih

/-- The same is read of what stands under a name, whatever the order of the fields is. -/
theorem map_head?_under_reordered {α : Type} {read : Doc → α}
    (hread : ∀ d e : Doc, d.Reordered e → read d = read e) {l m n : List (String × Doc)}
    (hnames : (l.map (·.1)).Nodup) (hfields : ReorderedFields l m) (hperm : m.Perm n)
    (name : String) : (under name (keyed l)).head?.map read =
      (under name (keyed n)).head?.map read := by
  have hsame : List.Forall₂ (fun e f => e.1 = f.1 ∧ read e.2 = read f.2) l m :=
    hfields.forall₂ hread
  have hhead {ds es : List Doc} (h : List.Forall₂ (fun d e => read d = read e) ds es) :
      ds.head?.map read = es.head?.map read := by
    cases h with
    | nil => rfl
    | cons hitem _ => exact congrArg some hitem
  rw [← under_perm hperm (hfields.names_eq ▸ hnames)]
  exact hhead (under_congr hsame name)

end Doc

namespace Value

theorem typeOf?_reordered {d e : Doc} (h : d.Reordered e) : typeOf? d = typeOf? e := by
  cases h <;> rfl

theorem typeId?_reordered {d e : Doc} (h : d.Reordered e) : typeId? d = typeId? e := by
  cases h <;> rfl

theorem text?_reordered {d e : Doc} (h : d.Reordered e) : text? d = text? e := by
  cases h <;> rfl

theorem once_congr {α : Type} {read : Doc → Option α} {ds es : List Doc}
    (h : List.Forall₂ (fun d e => read d = read e) ds es) (found : Option α) :
    once read found ds = once read found es := by
  induction h generalizing found with
  | nil => rfl
  | cons hitem _ ih =>
      cases found with
      | none => simp only [once, hitem, ih]
      | some _ => rfl

theorem typeField?_eq (fields : List (Head × Doc)) :
    typeField? fields = (once typeOf? none (under "type" fields)).join := by
  apply Option.ext
  intro type
  rw [typeField?_eq_some_iff, Option.join_eq_some_iff,
    once_none_eq_some_iff]
  constructor
  · rintro ⟨d, hd, htype⟩
    exact .inr ⟨d, type, hd, htype, rfl⟩
  · rintro (⟨-, h⟩ | ⟨d, _, hd, htype, h⟩)
    · cases h
    · cases h
      exact ⟨d, hd, htype⟩

def Same (d e : Doc) : Prop := ofDoc? d = ofDoc? e ∧ parameters? d = parameters? e

theorem ofItems?_congr {ds es : List Doc} (h : List.Forall₂ Same ds es) :
    ofItems? ds = ofItems? es := by
  induction h with
  | nil => rfl
  | cons hitem _ ih => simp only [ofItems?, hitem.1, ih]

theorem ofTypedItems?_congr {ds es : List Doc} (hitems : ReorderedItems ds es)
    (h : List.Forall₂ Same ds es) : ofTypedItems? ds = ofTypedItems? es := by
  rcases hitems with - | ⟨htype, - | ⟨hid, - | ⟨-, - | ⟨-, -⟩⟩⟩⟩
  · rfl
  · unfold ofTypedItems?
    rw [typeOf?_reordered htype]
  · unfold ofTypedItems?
    cases hid with
    | scalar s => cases s <;> simp only [typeOf?_reordered htype]
    | _ => simp only [Doc.named, typeId?, typeOf?_reordered htype]
  · simp only [List.forall₂_cons] at h
    unfold ofTypedItems?
    simp only [typeOf?_reordered htype, typeId?_reordered hid, h.2.2.1.2]
  · unfold ofTypedItems?
    cases hid with
    | scalar s => cases s <;> rfl
    | _ => rfl

theorem toOption_ofDoc (d : Doc) : (ofDoc d).toOption = ofDoc? d := by
  unfold ofDoc
  cases ofDoc? d <;> rfl

theorem entries?_eq (found : NameMap Value) (l : List (String × Doc)) :
    entries? found (keyed l) = (Doc.readEntries ofDoc found (keyed l)).toOption := by
  induction l generalizing found with
  | nil => rfl
  | cons e rest ih =>
      rw [Doc.toOption_readEntries_cons, toOption_ofDoc]
      simp only [← ih]
      rfl

theorem parameters?_congr {l m n : List (String × Doc)} (hnames : (l.map (·.1)).Nodup)
    (hfields : ReorderedFields l m) (hperm : m.Perm n)
    (h : List.Forall₂ (fun e f => e.1 = f.1 ∧ Same e.2 f.2) l m) :
    parameters? (.named l) = parameters? (.named n) := by
  have hnames' := hfields.names_eq ▸ hnames
  have hentries : List.Forall₂ (fun e f => e.1 = f.1 ∧
      (ofDoc e.2).toOption = (ofDoc f.2).toOption) l m :=
    h.imp fun e f h => ⟨h.1, by rw [toOption_ofDoc, toOption_ofDoc, h.2.1]⟩
  calc
    parameters? (.named l) = entries? .empty (keyed l) := rfl
    _ = entries? .empty (keyed m) := by
      rw [entries?_eq, entries?_eq, Doc.readEntries_congr hentries]
    _ = entries? .empty (keyed n) := by
      rw [entries?_eq, entries?_eq, Doc.readEntries_perm hperm hnames']
    _ = parameters? (.named n) := rfl

/-- A record is read from what stands under its names, whatever their order is. -/
theorem ofDoc?_record_congr {l m n : List (String × Doc)} (hnames : (l.map (·.1)).Nodup)
    (hfields : ReorderedFields l m) (hperm : m.Perm n)
    (h : List.Forall₂ (fun e f => e.1 = f.1 ∧ Same e.2 f.2) l m) :
    ofDoc? (.named l) = ofDoc? (.named n) := by
  have hnames' := hfields.names_eq ▸ hnames
  have honce {α : Type} {read : Doc → Option α} (name : String) (found : Option α)
      (hread : List.Forall₂ (fun e f => e.1 = f.1 ∧ read e.2 = read f.2) l m) :
      once read found (under name (keyed l)) = once read found (under name (keyed n)) := by
    rw [← Doc.under_perm hperm hnames' name]
    exact once_congr (Doc.under_congr hread name) found
  have htype : typeField? (keyed l) = typeField? (keyed n) := by
    rw [typeField?_eq, typeField?_eq,
      honce "type" none (hfields.forall₂ fun _ _ => typeOf?_reordered)]
  have hover : Doc.OverFields (fun _ => True) (keyed l) ∧
      Doc.OverFields (fun _ => True) (keyed n) := (Reordered.record hnames hfields hperm).over
  have hcdata : cdataField? none (keyed l) = cdataField? none (keyed n) := by
    rw [cdataField?_eq hover.1, cdataField?_eq hover.2,
      honce "value" none (hfields.forall₂ fun _ _ => text?_reordered)]
  have hobject : objectFields? none none (keyed l) = objectFields? none none (keyed n) := by
    rw [objectFields?_eq hover.1, objectFields?_eq hover.2,
      honce "typeId" none (hfields.forall₂ fun _ _ => typeId?_reordered),
      honce "parameters" none (h.imp fun e f h => ⟨h.1, h.2.2⟩)]
  simp only [Doc.named_eq_record, ofDoc?, htype, hcdata, hobject]

mutual
/-- A document is read to the same value whatever the order of its fields is. -/
theorem same_of_reordered : {d e : Doc} → d.Reordered e → Same d e
  | _, _, .scalar s => ⟨rfl, rfl⟩
  | _, _, .list hitems => by
    have h := same_of_reorderedItems hitems
    refine ⟨?_, rfl⟩
    rw [ofDoc?, ofDoc?, ofItems?_congr h, ofTypedItems?_congr hitems h]
  | _, _, .record hnames hfields hperm => by
    have h := same_of_reorderedFields hfields
    exact ⟨ofDoc?_record_congr hnames hfields hperm h, parameters?_congr hnames hfields hperm h⟩

theorem same_of_reorderedItems : {ds es : List Doc} → ReorderedItems ds es →
    List.Forall₂ Same ds es
  | _, _, .nil => .nil
  | _, _, .cons hitem hrest => .cons (same_of_reordered hitem) (same_of_reorderedItems hrest)

theorem same_of_reorderedFields : {l m : List (String × Doc)} → ReorderedFields l m →
    List.Forall₂ (fun e f => e.1 = f.1 ∧ Same e.2 f.2) l m
  | _, _, .nil => .nil
  | _, _, .cons hvalue hrest =>
    .cons ⟨rfl, same_of_reordered hvalue⟩ (same_of_reorderedFields hrest)
end

theorem ofDoc_reordered {d e : Doc} (h : d.Reordered e) :
    (ofDoc d).toOption = (ofDoc e).toOption := by
  rw [toOption_ofDoc, toOption_ofDoc, (same_of_reordered h).1]

end Value

theorem ObjectValue.ofDoc_reordered {d e : Doc} (h : d.Reordered e) :
    (ofDoc d).toOption = (ofDoc e).toOption := by
  simp only [ofDoc, toOption_bind, Value.ofDoc_reordered h]

/-! ## Data -/

namespace Datum

theorem ofFields_eq (isFirst : Bool) (found : NameMap Datum) (l : List (String × Doc)) :
    (ofFields isFirst found (keyed l)).toOption =
      (Doc.readEntries ofDoc found (keyed l)).toOption := by
  induction l generalizing isFirst found with
  | nil => rfl
  | cons e rest ih =>
      rw [Doc.toOption_readEntries_cons]
      simp only [← ih false]
      simp only [keyed, List.map_cons, ofFields, Head.name?, toOption_bind]

mutual
theorem ofDoc_reordered : {d e : Doc} → d.Reordered e → (ofDoc d).toOption = (ofDoc e).toOption
  | _, _, .scalar s => rfl
  | _, _, .list hitems => by
    simp only [ofDoc, toOption_bind, ofItems_reordered hitems]
  | _, _, @Reordered.record l m n hnames hfields hperm => by
    have hnames' := hfields.names_eq ▸ hnames
    have hentries : (ofFields true .empty (keyed l)).toOption =
        (ofFields true .empty (keyed n)).toOption := by
      rw [ofFields_eq, ofFields_eq, Doc.readEntries_congr (ofDoc_reorderedFields hfields),
        Doc.readEntries_perm hperm hnames']
    simp only [Doc.named_eq_record, ofDoc, toOption_bind, hentries]

theorem ofItems_reordered : {ds es : List Doc} → ReorderedItems ds es →
    (ofItems ds).toOption = (ofItems es).toOption
  | _, _, .nil => rfl
  | _, _, .cons hitem hrest => by
    simp only [ofItems, toOption_bind, ofDoc_reordered hitem, ofItems_reordered hrest]

theorem ofDoc_reorderedFields : {l m : List (String × Doc)} → ReorderedFields l m →
    List.Forall₂ (fun e f => e.1 = f.1 ∧ (ofDoc e.2).toOption = (ofDoc f.2).toOption) l m
  | _, _, .nil => .nil
  | _, _, .cons hvalue hrest => .cons ⟨rfl, ofDoc_reordered hvalue⟩ (ofDoc_reorderedFields hrest)
end

end Datum

end FlowArtifact
