import FlowArtifact.Doc

/-!
# Documents that are written

The documents of artifacts have texts for keys and hold no zero with a minus
sign; `Over` says this and what holds of their scalars.  A document is followed
through a text format by what becomes of its scalars: `mapScalars` is the
document that is read when each scalar is read as another.
-/

namespace FlowArtifact

theorem Head.name?_eq_some_iff {key : Head} {name : String} :
    key.name? = some name ↔ key = .scalar (.text name) := by
  cases key with
  | scalar s => cases s <;> simp [name?]
  | _ => simp [name?]

namespace Doc

mutual
/-- Every key is a text, and `P` holds of every scalar outside of keys. -/
def Over (P : Scalar → Prop) : Doc → Prop
  | .scalar s => P s
  | .minusZero => False
  | .list items => OverItems P items
  | .record fields => OverFields P fields

def OverItems (P : Scalar → Prop) : List Doc → Prop
  | [] => True
  | d :: rest => d.Over P ∧ OverItems P rest

def OverFields (P : Scalar → Prop) : List (Head × Doc) → Prop
  | [] => True
  | (key, d) :: rest => (∃ name, key = .scalar (.text name)) ∧ d.Over P ∧ OverFields P rest
end

section
variable {P : Scalar → Prop}

theorem overItems_iff {items : List Doc} : OverItems P items ↔ ∀ d ∈ items, d.Over P := by
  induction items with
  | nil => simp [OverItems]
  | cons d rest ih => simp [OverItems, ih]

@[simp] theorem over_scalar {s : Scalar} : (Doc.scalar s).Over P ↔ P s := Iff.rfl

@[simp] theorem over_text {s : String} : (Doc.text s).Over P ↔ P (.text s) := Iff.rfl

@[simp] theorem over_list {items : List Doc} :
    (Doc.list items).Over P ↔ ∀ d ∈ items, d.Over P := by
  rw [Over, overItems_iff]

@[simp] theorem over_named {fields : List (String × Doc)} :
    (Doc.named fields).Over P ↔ ∀ e ∈ fields, e.2.Over P := by
  rw [named, Over]
  induction fields with
  | nil => simp [OverFields]
  | cons e rest ih =>
      simp only [List.map_cons, OverFields, ih, List.forall_mem_cons, Head.scalar.injEq,
        Scalar.text.injEq, exists_eq', true_and]

end

mutual
theorem Over.imp {P Q : Scalar → Prop} (h : ∀ s, P s → Q s) : {d : Doc} → d.Over P → d.Over Q
  | .scalar s, hd => h s hd
  | .minusZero, hd => hd
  | .list _, hd => OverItems.imp h hd
  | .record _, hd => OverFields.imp h hd

theorem OverItems.imp {P Q : Scalar → Prop} (h : ∀ s, P s → Q s) :
    {items : List Doc} → OverItems P items → OverItems Q items
  | [], _ => trivial
  | _ :: _, hd => ⟨hd.1.imp h, OverItems.imp h hd.2⟩

theorem OverFields.imp {P Q : Scalar → Prop} (h : ∀ s, P s → Q s) :
    {fields : List (Head × Doc)} → OverFields P fields → OverFields Q fields
  | [], _ => trivial
  | _ :: _, hd => ⟨hd.1, hd.2.1.imp h, OverFields.imp h hd.2.2⟩
end

mutual
def mapScalars (g : Scalar → Scalar) : Doc → Doc
  | .scalar s => .scalar (g s)
  | .minusZero => .minusZero
  | .list items => .list (mapItems g items)
  | .record fields => .record (mapFields g fields)

def mapItems (g : Scalar → Scalar) : List Doc → List Doc
  | [] => []
  | d :: rest => d.mapScalars g :: mapItems g rest

def mapFields (g : Scalar → Scalar) : List (Head × Doc) → List (Head × Doc)
  | [] => []
  | (key, d) :: rest => (key, d.mapScalars g) :: mapFields g rest
end

section
variable (g : Scalar → Scalar)

theorem mapItems_eq_map (items : List Doc) :
    mapItems g items = items.map (mapScalars g) := by
  induction items with
  | nil => rfl
  | cons d rest ih => rw [mapItems, ih, List.map_cons]

theorem mapFields_eq_map (fields : List (Head × Doc)) :
    mapFields g fields = fields.map fun e => (e.1, e.2.mapScalars g) := by
  induction fields with
  | nil => rfl
  | cons e rest ih => rw [mapFields, ih, List.map_cons]

@[simp] theorem mapScalars_scalar (s : Scalar) : (Doc.scalar s).mapScalars g = .scalar (g s) := rfl

@[simp] theorem mapScalars_list (items : List Doc) :
    (Doc.list items).mapScalars g = .list (items.map (mapScalars g)) := by
  rw [mapScalars, mapItems_eq_map]

def mapNamed (fields : List (String × Doc)) : List (String × Doc) :=
  fields.map fun e => (e.1, e.2.mapScalars g)

@[simp] theorem mapNamed_nil : mapNamed g [] = [] := rfl

@[simp] theorem mapNamed_cons (e : String × Doc) (fields : List (String × Doc)) :
    mapNamed g (e :: fields) = (e.1, e.2.mapScalars g) :: mapNamed g fields := rfl

@[simp] theorem mapNamed_append (l m : List (String × Doc)) :
    mapNamed g (l ++ m) = mapNamed g l ++ mapNamed g m := List.map_append

@[simp] theorem mapScalars_named (fields : List (String × Doc)) :
    (Doc.named fields).mapScalars g = .named (mapNamed g fields) := by
  rw [named, mapScalars, mapFields_eq_map]
  simp [named, mapNamed]

end

mutual
theorem mapScalars_eq_self {g : Scalar → Scalar} :
    {d : Doc} → d.Over (fun s => g s = s) → d.mapScalars g = d
  | .scalar s, h => by rw [mapScalars, show g s = s from h]
  | .minusZero, h => h.elim
  | .list items, h => by rw [mapScalars, mapItems_eq_self h]
  | .record fields, h => by rw [mapScalars, mapFields_eq_self h]

theorem mapItems_eq_self {g : Scalar → Scalar} :
    {items : List Doc} → OverItems (fun s => g s = s) items → mapItems g items = items
  | [], _ => rfl
  | d :: rest, h => by rw [mapItems, mapScalars_eq_self h.1, mapItems_eq_self h.2]

theorem mapFields_eq_self {g : Scalar → Scalar} :
    {fields : List (Head × Doc)} → OverFields (fun s => g s = s) fields →
      mapFields g fields = fields
  | [], _ => rfl
  | (key, d) :: rest, h => by rw [mapFields, mapScalars_eq_self h.2.1, mapFields_eq_self h.2.2]
end

/-! ## Nesting -/

theorem nestingItems_le_iff {items : List Doc} {n : Nat} :
    nestingItems items ≤ n ↔ ∀ d ∈ items, d.nesting ≤ n := by
  induction items with
  | nil => simp [nestingItems]
  | cons d rest ih => rw [nestingItems, Nat.max_le, ih, List.forall_mem_cons]

theorem nesting_list (items : List Doc) :
    (Doc.list items).nesting = 1 + (items.map nesting).foldr max 0 := by
  have hitems : nestingItems items = (items.map nesting).foldr max 0 := by
    induction items with
    | nil => rfl
    | cons d rest ih => rw [nestingItems, ih, List.map_cons, List.foldr_cons]
  rw [nesting, hitems]

theorem nesting_named (fields : List (String × Doc)) :
    (Doc.named fields).nesting = 1 + (fields.map (·.2.nesting)).foldr max 0 := by
  rw [named, nesting]
  induction fields with
  | nil => rfl
  | cons e rest ih =>
      rw [Nat.add_left_cancel_iff] at ih
      rw [List.map_cons, nestingFields, ih, List.map_cons, List.foldr_cons]

@[simp] theorem nesting_scalar (s : Scalar) : (Doc.scalar s).nesting = 0 := rfl

@[simp] theorem nesting_text (s : String) : (Doc.text s).nesting = 0 := rfl

@[simp] theorem nesting_list_le {items : List Doc} {n : Nat} :
    (Doc.list items).nesting ≤ n + 1 ↔ ∀ d ∈ items, d.nesting ≤ n := by
  rw [nesting, Nat.add_comm 1, Nat.add_le_add_iff_right, nestingItems_le_iff]

@[simp] theorem nesting_named_le {fields : List (String × Doc)} {n : Nat} :
    (Doc.named fields).nesting ≤ n + 1 ↔ ∀ e ∈ fields, e.2.nesting ≤ n := by
  rw [named, nesting, Nat.add_comm 1, Nat.add_le_add_iff_right]
  induction fields with
  | nil => simp [nestingFields]
  | cons e rest ih => rw [List.map_cons, nestingFields, Nat.max_le, ih, List.forall_mem_cons]

end Doc

end FlowArtifact
