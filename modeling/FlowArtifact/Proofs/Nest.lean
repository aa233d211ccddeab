import FlowArtifact.Proofs.NameMap
import FlowArtifact.Nest

/-!
# Nested data, its depth and its leaves

The depth of a list or record is one more than what bounds the depths of its
parts, and it does not depend on the leaves.
-/

namespace FlowArtifact.Nest

variable {α τ : Type}

theorem foldr_max_le_iff {l : List Nat} {n : Nat} : l.foldr max 0 ≤ n ↔ ∀ k ∈ l, k ≤ n := by
  induction l with
  | nil => simp
  | cons k rest ih => rw [List.foldr_cons, Nat.max_le, ih, List.forall_mem_cons]

@[simp] theorem depth_leaf (a : α) : (leaf a : Nest α τ).depth = 1 := fold_leaf _ _ _ a

theorem depth_list (items : List (Nest α τ)) :
    (list items).depth = 1 + (items.map depth).foldr max 0 := fold_list _ _ _ items

theorem depth_record (tag : τ) (fields : NameMap (Nest α τ)) :
    (record tag fields).depth = 1 + (fields.entries.map (·.2.depth)).foldr max 0 := by
  unfold depth
  rw [fold_record, NameMap.entries_map, List.map_map]
  rfl

theorem depth_list_le_iff {items : List (Nest α τ)} {n : Nat} :
    (list items).depth ≤ n + 1 ↔ ∀ item ∈ items, item.depth ≤ n := by
  rw [depth_list, Nat.add_comm 1, Nat.add_le_add_iff_right, foldr_max_le_iff, List.forall_mem_map]

theorem depth_record_le_iff {tag : τ} {fields : NameMap (Nest α τ)} {n : Nat} :
    (record tag fields).depth ≤ n + 1 ↔ ∀ e ∈ fields.entries, e.2.depth ≤ n := by
  rw [depth_record, Nat.add_comm 1, Nat.add_le_add_iff_right, foldr_max_le_iff,
    List.forall_mem_map]

theorem depth_pos (n : Nest α τ) : 0 < n.depth := by
  induction n using induct with
  | leaf a => simp
  | list items ih =>
      rw [depth_list]
      omega
  | record tag fields ih =>
      rw [depth_record]
      omega

/-! ## Replacing leaves -/

def mapLeaf (f : α → α) (n : Nest α τ) : Nest α τ :=
  n.fold (fun a => leaf (f a)) list fun tag fields => record tag (.ofList fields)

section
variable (f : α → α)

@[simp] theorem mapLeaf_leaf (a : α) : (leaf a : Nest α τ).mapLeaf f = leaf (f a) :=
  fold_leaf _ _ _ a

@[simp] theorem mapLeaf_list (items : List (Nest α τ)) :
    (list items).mapLeaf f = list (items.map (mapLeaf f)) := fold_list _ _ _ items

@[simp] theorem mapLeaf_record (tag : τ) (fields : NameMap (Nest α τ)) :
    (record tag fields).mapLeaf f = record tag (fields.map (mapLeaf f)) := by
  unfold mapLeaf
  rw [fold_record, NameMap.ofList_entries]

@[simp] theorem depth_mapLeaf (n : Nest α τ) : (n.mapLeaf f).depth = n.depth := by
  induction n using induct with
  | leaf a => simp
  | list items ih =>
      rw [mapLeaf_list, depth_list, depth_list, List.map_map,
        List.map_congr_left (f := depth ∘ mapLeaf f) ih]
  | record tag fields ih =>
      rw [mapLeaf_record, depth_record, depth_record, NameMap.entries_map, List.map_map]
      congr 2
      exact List.map_congr_left ih

end

end FlowArtifact.Nest
