import FlowArtifact.Datum
import FlowArtifact.Proofs.Doc
import FlowArtifact.Proofs.Doc.Fields
import FlowArtifact.Proofs.Nest

/-!
# Data and their documents

The document of a datum has its scalars for leaves.  It is read back to the
datum, but a double that is infinite or no number comes back as null; a datum
without doubles is not changed by whatever a text format does to doubles.
-/

namespace FlowArtifact

namespace Scalar

def isExact : Scalar → Bool
  | real _ => false
  | _ => true

/-- The scalar that a datum holds for this one: null for a double that is not finite. -/
def settled : Scalar → Scalar
  | real x => if x.isFinite then real x else null
  | s => s

theorem settled_of_isExact {s : Scalar} (h : s.isExact = true) : s.settled = s := by
  cases s <;> simp_all [settled, isExact]

end Scalar

namespace Datum

def isExact (v : Datum) : Bool :=
  v.fold Scalar.isExact (·.all id) fun _ fields => fields.all (·.2)

@[simp] theorem isExact_leaf (s : Scalar) : isExact (.leaf s) = s.isExact :=
  Nest.fold_leaf _ _ _ s

theorem isExact_list {items : List Datum} :
    isExact (.list items) = true ↔ ∀ v ∈ items, v.isExact = true := by
  unfold isExact
  simp

theorem isExact_record {fields : NameMap Datum} :
    isExact (.record () fields) = true ↔ ∀ e ∈ fields.entries, e.2.isExact = true := by
  unfold isExact
  simp

theorem toDoc_leaf (s : Scalar) : toDoc (.leaf s) = .scalar s := Nest.fold_leaf _ _ _ s

theorem toDoc_list (items : List Datum) : toDoc (.list items) = .list (items.map toDoc) :=
  Nest.fold_list _ _ _ items

theorem toDoc_record (fields : NameMap Datum) :
    toDoc (.record () fields) = .named (fields.map toDoc).entries :=
  Nest.fold_record _ _ _ () fields

theorem over_toDoc {P : Scalar → Prop} {v : Datum} (hP : ∀ s, s.isExact = true → P s)
    (h : v.isExact = true ∨ ∀ s, P s) : v.toDoc.Over P := by
  induction v using Nest.induct with
  | leaf s =>
      rw [toDoc_leaf, Doc.over_scalar]
      rcases h with h | h
      · exact hP s (by simpa using h)
      · exact h s
  | list items ih =>
      rw [toDoc_list, Doc.over_list, List.forall_mem_map]
      intro v hv
      exact ih v hv (h.imp_left fun h => isExact_list.1 h v hv)
  | record tag fields ih =>
      rw [toDoc_record, Doc.over_named, NameMap.entries_map, List.forall_mem_map]
      intro e he
      exact ih e he (h.imp_left fun h => isExact_record.1 h e he)

theorem nesting_toDoc_le {v : Datum} {n : Nat} (h : v.depth ≤ n) : v.toDoc.nesting ≤ n := by
  induction v using Nest.induct generalizing n with
  | leaf s =>
      rw [toDoc_leaf]
      exact Nat.zero_le n
  | list items ih =>
      have hpos := (Nest.list items : Datum).depth_pos
      obtain ⟨m, rfl⟩ : ∃ m, n = m + 1 := ⟨n - 1, by omega⟩
      have hitems := Nest.depth_list_le_iff.1 h
      rw [toDoc_list, Doc.nesting_list_le, List.forall_mem_map]
      exact fun v hv => ih v hv (hitems v hv)
  | record tag fields ih =>
      have hpos := (Nest.record tag fields : Datum).depth_pos
      obtain ⟨m, rfl⟩ : ∃ m, n = m + 1 := ⟨n - 1, by omega⟩
      have hfields := Nest.depth_record_le_iff.1 h
      rw [toDoc_record, Doc.nesting_named_le, NameMap.entries_map, List.forall_mem_map]
      exact fun e he => ih e he (hfields e he)

def levels (v : Datum) : Nat :=
  v.fold (fun _ => 0) (fun items => 1 + items.foldr max 0)
    (fun _ fields => 1 + (fields.map (·.2)).foldr max 0)

theorem levels_leaf (s : Scalar) : levels (.leaf s) = 0 := Nest.fold_leaf _ _ _ s

theorem levels_list (items : List Datum) :
    levels (.list items) = 1 + (items.map levels).foldr max 0 := Nest.fold_list _ _ _ items

theorem levels_record (fields : NameMap Datum) :
    levels (.record () fields) =
      1 + (fields.entries.map fun e : String × Datum => e.2.levels).foldr max 0 := by
  unfold levels
  rw [Nest.fold_record, NameMap.entries_map, List.map_map]
  rfl

theorem nesting_toDoc (v : Datum) : v.toDoc.nesting = v.levels := by
  induction v using Nest.induct with
  | leaf s => rw [toDoc_leaf, levels_leaf, Doc.nesting_scalar]
  | list items ih =>
      have hitems : (items.map toDoc).map Doc.nesting = items.map levels := by
        rw [List.map_map]
        exact List.map_congr_left ih
      rw [toDoc_list, levels_list, Doc.nesting_list, hitems]
  | record tag fields ih =>
      have hfields : (fields.map toDoc).entries.map (·.2.nesting) =
          fields.entries.map fun e : String × Datum => e.2.levels := by
        rw [NameMap.entries_map, List.map_map]
        exact List.map_congr_left ih
      rw [toDoc_record, levels_record, Doc.nesting_named, hfields]

theorem toDoc_mapLeaf (g : Scalar → Scalar) (v : Datum) :
    toDoc (v.mapLeaf g) = v.toDoc.mapScalars g := by
  induction v using Nest.induct with
  | leaf s => rw [Nest.mapLeaf_leaf, toDoc_leaf, toDoc_leaf, Doc.mapScalars_scalar]
  | list items ih =>
      rw [Nest.mapLeaf_list, toDoc_list, toDoc_list, Doc.mapScalars_list, List.map_map,
        List.map_map]
      congr 1
      exact List.map_congr_left ih
  | record tag fields ih =>
      rw [Nest.mapLeaf_record, toDoc_record, toDoc_record, Doc.mapScalars_named]
      simp only [Doc.mapNamed, NameMap.entries_map, List.map_map]
      congr 1
      exact List.map_congr_left fun e he => by simp [ih e he]

/-! ## Reading a datum back -/

theorem ofScalar_eq_leaf (s : Scalar) : ofScalar s = .leaf s.settled := by
  cases s <;> rfl

theorem ofItems_map {items : List Datum}
    (h : ∀ v ∈ items, ofDoc v.toDoc = .ok (v.mapLeaf Scalar.settled)) :
    ofItems (items.map toDoc) = .ok (items.map (Nest.mapLeaf Scalar.settled)) := by
  induction items with
  | nil => rfl
  | cons v rest ih =>
      obtain ⟨hv, hrest⟩ := List.forall_mem_cons.1 h
      simp [ofItems, hv, ih hrest]

theorem ofFields_named (l : List (String × Datum)) (isFirst : Bool) (found m : NameMap Datum)
    (hread : ∀ e ∈ l, ofDoc e.2.toDoc = .ok (e.2.mapLeaf Scalar.settled))
    (hm : m.entries = found.entries ++ l.map fun e => (e.1, e.2.mapLeaf Scalar.settled)) :
    ofFields isFirst found (l.map fun e => (.scalar (.text e.1), e.2.toDoc)) = .ok m := by
  induction l generalizing isFirst found with
  | nil =>
      have heq : found = m := NameMap.ext (by simpa using hm.symm)
      rw [heq]
      rfl
  | cons e rest ih =>
      obtain ⟨he, hrest⟩ := List.forall_mem_cons.1 hread
      simp only [List.map_cons, ofFields, Head.name?, he, ok_bind]
      exact ih false _ hrest (NameMap.insert_eq_of_entries hm)

/-- A datum is read back from its document, its doubles settled. -/
theorem ofDoc_toDoc (v : Datum) : ofDoc v.toDoc = .ok (v.mapLeaf Scalar.settled) := by
  induction v using Nest.induct with
  | leaf s => rw [toDoc_leaf, ofDoc, ofScalar_eq_leaf, Nest.mapLeaf_leaf]
  | list items ih =>
      rw [toDoc_list, ofDoc, ofItems_map ih, Nest.mapLeaf_list]
      rfl
  | record tag fields ih =>
      have hfields := ofFields_named fields.entries true .empty
        (fields.map (Nest.mapLeaf Scalar.settled)) ih (by simp)
      have hentries : (fields.map toDoc).entries.map
          (fun e => ((.scalar (.text e.1), e.2) : Head × Doc)) =
            fields.entries.map fun e => (.scalar (.text e.1), toDoc e.2) := by
        simp
      rw [toDoc_record, Doc.named, ofDoc, hentries, hfields, Nest.mapLeaf_record]
      rfl

theorem mapLeaf_eq_self {g : Scalar → Scalar} {v : Datum} (hg : ∀ s, s.isExact = true → g s = s)
    (h : v.isExact = true) : v.mapLeaf g = v := by
  induction v using Nest.induct with
  | leaf s => rw [Nest.mapLeaf_leaf, hg s (by simpa using h)]
  | list items ih =>
      have hitems := isExact_list.1 h
      have hmap : items.map (Nest.mapLeaf g) = items.map id :=
        List.map_congr_left fun v hv => ih v hv (hitems v hv)
      rw [Nest.mapLeaf_list, hmap, List.map_id]
  | record tag fields ih =>
      have hfields := isExact_record.1 h
      rw [Nest.mapLeaf_record, NameMap.map_eq_self fun e he => ih e he (hfields e he)]

end Datum

end FlowArtifact
