import FlowArtifact.NameMap

/-!
# Nested data

A `Nest` is a leaf, a list of nests, or a record: a tag and nests under names. Parameter values
and metadata are both nests and differ in their leaves and tags only. A `Shape` is the bare tree;
a `Nest` is one whose records are in the order of their names. The rest of the library speaks of a
nest through its constructors, its `view`, the recursion `fold` and the induction `induct`.
-/

namespace FlowArtifact

/-- A tree of leaves, lists and records, its fields in any order. -/
inductive Shape (α τ : Type) where
  | leaf (a : α)
  | list (items : List (Shape α τ))
  | record (tag : τ) (fields : List (String × Shape α τ))

namespace Shape

variable {α τ β : Type}

mutual
/-- The fields of every record stand in increasing order of their names. -/
def Ordered : Shape α τ → Prop
  | .leaf _ => True
  | .list items => OrderedItems items
  | .record _ fields => fields.Pairwise (fun a b => a.1 < b.1) ∧ OrderedFields fields

def OrderedItems : List (Shape α τ) → Prop
  | [] => True
  | s :: rest => s.Ordered ∧ OrderedItems rest

def OrderedFields : List (String × Shape α τ) → Prop
  | [] => True
  | (_, s) :: rest => s.Ordered ∧ OrderedFields rest
end

theorem orderedItems_iff {items : List (Shape α τ)} :
    OrderedItems items ↔ ∀ s ∈ items, s.Ordered := by
  induction items with
  | nil => simp [OrderedItems]
  | cons s rest ih => simp [OrderedItems, ih]

theorem orderedFields_iff {fields : List (String × Shape α τ)} :
    OrderedFields fields ↔ ∀ e ∈ fields, e.2.Ordered := by
  induction fields with
  | nil => simp [OrderedFields]
  | cons e rest ih => simp [OrderedFields, ih]

mutual
/-- Replaces leaves, lists and records from the inside out. -/
def fold (leaf : α → β) (list : List β → β) (record : τ → List (String × β) → β) :
    Shape α τ → β
  | .leaf a => leaf a
  | .list items => list (foldItems leaf list record items)
  | .record tag fields => record tag (foldFields leaf list record fields)

def foldItems (leaf : α → β) (list : List β → β) (record : τ → List (String × β) → β) :
    List (Shape α τ) → List β
  | [] => []
  | s :: rest => s.fold leaf list record :: foldItems leaf list record rest

def foldFields (leaf : α → β) (list : List β → β) (record : τ → List (String × β) → β) :
    List (String × Shape α τ) → List (String × β)
  | [] => []
  | (name, s) :: rest => (name, s.fold leaf list record) :: foldFields leaf list record rest
end

theorem foldItems_eq_map (leaf : α → β) (list : List β → β) (record : τ → List (String × β) → β)
    (items : List (Shape α τ)) :
    foldItems leaf list record items = items.map (fold leaf list record) := by
  induction items with
  | nil => rfl
  | cons s rest ih => simp [foldItems, ih]

theorem foldFields_eq_map (leaf : α → β) (list : List β → β) (record : τ → List (String × β) → β)
    (fields : List (String × Shape α τ)) :
    foldFields leaf list record fields =
      fields.map fun e => (e.1, e.2.fold leaf list record) := by
  induction fields with
  | nil => rfl
  | cons e rest ih => simp [foldFields, ih]

mutual
def same (sameLeaf : α → α → Bool) [BEq τ] : Shape α τ → Shape α τ → Bool
  | .leaf a, .leaf b => sameLeaf a b
  | .list items, .list items' => sameItems sameLeaf items items'
  | .record tag fields, .record tag' fields' => tag == tag' && sameFields sameLeaf fields fields'
  | _, _ => false

def sameItems (sameLeaf : α → α → Bool) [BEq τ] : List (Shape α τ) → List (Shape α τ) → Bool
  | [], [] => true
  | s :: rest, s' :: rest' => s.same sameLeaf s' && sameItems sameLeaf rest rest'
  | _, _ => false

def sameFields (sameLeaf : α → α → Bool) [BEq τ] :
    List (String × Shape α τ) → List (String × Shape α τ) → Bool
  | [], [] => true
  | (name, s) :: rest, (name', s') :: rest' =>
    name == name' && s.same sameLeaf s' && sameFields sameLeaf rest rest'
  | _, _ => false
end

end Shape

/-- Nested data whose records are in the order of their names. -/
structure Nest (α τ : Type) where
  shape : Shape α τ
  ordered : shape.Ordered

namespace Nest

variable {α τ β : Type}

@[ext] theorem ext {m n : Nest α τ} (h : m.shape = n.shape) : m = n := by
  cases m; cases n; cases h; rfl

def leaf (a : α) : Nest α τ := ⟨.leaf a, trivial⟩

def list (items : List (Nest α τ)) : Nest α τ where
  shape := .list (items.map (·.shape))
  ordered := Shape.orderedItems_iff.2 (by
    intro s hs
    obtain ⟨n, _, rfl⟩ := List.mem_map.1 hs
    exact n.ordered)

def record (tag : τ) (fields : NameMap (Nest α τ)) : Nest α τ where
  shape := .record tag (fields.map (·.shape)).entries
  ordered := ⟨(fields.map (·.shape)).sorted, Shape.orderedFields_iff.2 (by
    intro e he
    obtain ⟨n, _, rfl⟩ := List.mem_map.1 he
    exact n.2.ordered)⟩

def ofItems : (items : List (Shape α τ)) → Shape.OrderedItems items → List (Nest α τ)
  | [], _ => []
  | s :: rest, h => ⟨s, h.1⟩ :: ofItems rest h.2

def ofFields :
    (fields : List (String × Shape α τ)) → Shape.OrderedFields fields → List (String × Nest α τ)
  | [], _ => []
  | (name, s) :: rest, h => (name, ⟨s, h.1⟩) :: ofFields rest h.2

theorem map_shape_ofItems (items : List (Shape α τ)) (h : Shape.OrderedItems items) :
    (ofItems items h).map (·.shape) = items := by
  induction items with
  | nil => rfl
  | cons s rest ih => simp [ofItems, ih]

theorem map_shape_ofFields (fields : List (String × Shape α τ)) (h : Shape.OrderedFields fields) :
    (ofFields fields h).map (fun e => (e.1, e.2.shape)) = fields := by
  induction fields with
  | nil => rfl
  | cons e rest ih => simp [ofFields, ih]

theorem pairwise_ofFields {fields : List (String × Shape α τ)} (h : Shape.OrderedFields fields)
    (hs : fields.Pairwise (fun a b => a.1 < b.1)) :
    (ofFields fields h).Pairwise (fun a b => a.1 < b.1) := by
  rw [← map_shape_ofFields fields h, List.pairwise_map] at hs
  exact hs

inductive View (α τ : Type) where
  | leaf (a : α)
  | list (items : List (Nest α τ))
  | record (tag : τ) (fields : NameMap (Nest α τ))

def view : Nest α τ → View α τ
  | ⟨.leaf a, _⟩ => .leaf a
  | ⟨.list items, h⟩ => .list (ofItems items h)
  | ⟨.record tag fields, h⟩ => .record tag ⟨ofFields fields h.2, pairwise_ofFields h.2 h.1⟩

def View.toNest : View α τ → Nest α τ
  | .leaf a => .leaf a
  | .list items => .list items
  | .record tag fields => .record tag fields

@[simp] theorem toNest_view (n : Nest α τ) : n.view.toNest = n := by
  obtain ⟨s, h⟩ := n
  apply ext
  cases s with
  | leaf a => rfl
  | list items => exact congrArg Shape.list (map_shape_ofItems items h)
  | record tag fields => exact congrArg (Shape.record tag) (map_shape_ofFields fields h.2)

@[simp] theorem view_leaf (a : α) : (leaf a : Nest α τ).view = .leaf a := rfl

theorem map_shape_injective {l m : List (Nest α τ)}
    (h : l.map (·.shape) = m.map (·.shape)) : l = m :=
  (List.map_inj_right fun _ _ => ext).1 h

theorem map_fields_injective {l m : List (String × Nest α τ)}
    (h : l.map (fun e => (e.1, e.2.shape)) = m.map (fun e => (e.1, e.2.shape))) : l = m := by
  refine (List.map_inj_right fun a b hab => ?_).1 h
  simp only [Prod.mk.injEq] at hab
  exact Prod.ext hab.1 (ext hab.2)

@[simp] theorem view_list (items : List (Nest α τ)) : (list items).view = .list items := by
  simp only [list, view, View.list.injEq]
  exact map_shape_injective (map_shape_ofItems _ _)

@[simp] theorem view_record (tag : τ) (fields : NameMap (Nest α τ)) :
    (record tag fields).view = .record tag fields := by
  simp only [record, view, View.record.injEq, true_and]
  exact NameMap.ext (map_fields_injective (map_shape_ofFields _ _))

mutual
theorem induct_shape {motive : Nest α τ → Prop}
    (leaf : ∀ a, motive (leaf a))
    (list : ∀ items, (∀ n ∈ items, motive n) → motive (list items))
    (record : ∀ tag (fields : NameMap (Nest α τ)),
      (∀ e ∈ fields.entries, motive e.2) → motive (record tag fields)) :
    (s : Shape α τ) → (h : s.Ordered) → motive ⟨s, h⟩
  | .leaf a, _ => leaf a
  | .list items, h => by
    have := list (ofItems items h) (induct_items leaf list record items h)
    rw [← toNest_view ⟨.list items, h⟩]
    exact this
  | .record tag fields, h => by
    have := record tag ⟨ofFields fields h.2, pairwise_ofFields h.2 h.1⟩
      (induct_fields leaf list record fields h.2)
    rw [← toNest_view ⟨.record tag fields, h⟩]
    exact this

theorem induct_items {motive : Nest α τ → Prop}
    (leaf : ∀ a, motive (leaf a))
    (list : ∀ items, (∀ n ∈ items, motive n) → motive (list items))
    (record : ∀ tag (fields : NameMap (Nest α τ)),
      (∀ e ∈ fields.entries, motive e.2) → motive (record tag fields)) :
    (items : List (Shape α τ)) → (h : Shape.OrderedItems items) →
      ∀ n ∈ ofItems items h, motive n
  | [], _ => by simp [ofItems]
  | s :: rest, h => by
    intro n hn
    rcases List.mem_cons.1 hn with rfl | hn
    · exact induct_shape leaf list record s h.1
    · exact induct_items leaf list record rest h.2 n hn

theorem induct_fields {motive : Nest α τ → Prop}
    (leaf : ∀ a, motive (leaf a))
    (list : ∀ items, (∀ n ∈ items, motive n) → motive (list items))
    (record : ∀ tag (fields : NameMap (Nest α τ)),
      (∀ e ∈ fields.entries, motive e.2) → motive (record tag fields)) :
    (fields : List (String × Shape α τ)) → (h : Shape.OrderedFields fields) →
      ∀ e ∈ ofFields fields h, motive e.2
  | [], _ => by simp [ofFields]
  | (name, s) :: rest, h => by
    intro e he
    rcases List.mem_cons.1 he with rfl | he
    · exact induct_shape leaf list record s h.1
    · exact induct_fields leaf list record rest h.2 e he
end

/-- A nest is built by one of the three constructors from smaller nests. -/
theorem induct {motive : Nest α τ → Prop}
    (leaf : ∀ a, motive (leaf a))
    (list : ∀ items, (∀ n ∈ items, motive n) → motive (list items))
    (record : ∀ tag (fields : NameMap (Nest α τ)),
      (∀ e ∈ fields.entries, motive e.2) → motive (record tag fields))
    (n : Nest α τ) : motive n :=
  induct_shape leaf list record n.shape n.ordered

def fold (leaf : α → β) (list : List β → β) (record : τ → List (String × β) → β)
    (n : Nest α τ) : β :=
  n.shape.fold leaf list record

section
variable (onLeaf : α → β) (onList : List β → β) (onRecord : τ → List (String × β) → β)

@[simp] theorem fold_leaf (a : α) : fold onLeaf onList onRecord (leaf a) = onLeaf a := by
  simp [fold, leaf, Shape.fold]

@[simp] theorem fold_list (items : List (Nest α τ)) :
    fold onLeaf onList onRecord (list items) =
      onList (items.map (fold onLeaf onList onRecord)) := by
  simp only [fold, list, Shape.fold, Shape.foldItems_eq_map, List.map_map]
  rfl

@[simp] theorem fold_record (tag : τ) (fields : NameMap (Nest α τ)) :
    fold onLeaf onList onRecord (record tag fields) =
      onRecord tag (fields.map (fold onLeaf onList onRecord)).entries := by
  simp only [fold, record, Shape.fold, Shape.foldFields_eq_map, NameMap.entries_map, List.map_map]
  rfl

end

def same (sameLeaf : α → α → Bool) [BEq τ] (m n : Nest α τ) : Bool :=
  m.shape.same sameLeaf n.shape

instance [Inhabited α] : Inhabited (Nest α τ) := ⟨leaf default⟩

/-- Levels of nesting; a leaf is one level. -/
def depth (n : Nest α τ) : Nat :=
  n.fold (fun _ => 1) (fun items => 1 + items.foldr max 0)
    (fun _ fields => 1 + (fields.map (·.2)).foldr max 0)

end Nest

end FlowArtifact
