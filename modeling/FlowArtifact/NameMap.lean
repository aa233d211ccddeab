/-!
# Maps from names

A `NameMap` holds named entries in the order of their names, each name once. Strings compare by
code points, which is also the order of their UTF-8 bytes. The order is part of the type, so two
maps with the same entries are equal however they were filled.
-/

namespace FlowArtifact

/-- Entries under names, in increasing order of the names. -/
structure NameMap (α : Type) where
  entries : List (String × α)
  sorted : entries.Pairwise (fun a b => a.1 < b.1)

namespace NameMap

variable {α β : Type}

@[ext] theorem ext {m n : NameMap α} (h : m.entries = n.entries) : m = n := by
  cases m; cases n; cases h; rfl

/-- Puts an entry in its place, replacing the one of the same name. -/
def insertEntry (name : String) (a : α) : List (String × α) → List (String × α)
  | [] => [(name, a)]
  | e :: rest =>
    if name < e.1 then (name, a) :: e :: rest
    else if name = e.1 then (name, a) :: rest
    else e :: insertEntry name a rest

theorem mem_insertEntry {name : String} {a : α} {x : String × α} {l : List (String × α)}
    (h : x ∈ insertEntry name a l) : x = (name, a) ∨ x ∈ l := by
  induction l with
  | nil => simpa [insertEntry] using h
  | cons e rest ih =>
    rw [insertEntry] at h
    split at h
    · simpa using h
    · split at h
      · rcases List.mem_cons.1 h with h | h
        · exact .inl h
        · exact .inr (List.mem_cons_of_mem _ h)
      · rcases List.mem_cons.1 h with h | h
        · exact .inr (h ▸ List.mem_cons_self)
        · exact (ih h).imp_right (List.mem_cons_of_mem _)

theorem pairwise_insertEntry {l : List (String × α)} (name : String) (a : α)
    (h : l.Pairwise (fun a b => a.1 < b.1)) :
    (insertEntry name a l).Pairwise (fun a b => a.1 < b.1) := by
  induction l with
  | nil => simp [insertEntry]
  | cons e rest ih =>
    have ⟨he, hrest⟩ := List.pairwise_cons.1 h
    rw [insertEntry]
    split
    · rename_i hlt
      refine List.pairwise_cons.2 ⟨fun x hx => ?_, h⟩
      rcases List.mem_cons.1 hx with rfl | hx
      · exact hlt
      · exact String.lt_trans hlt (he x hx)
    · split
      · rename_i hlt heq
        subst heq
        exact List.pairwise_cons.2 ⟨he, hrest⟩
      · rename_i hlt hne
        refine List.pairwise_cons.2 ⟨fun x hx => ?_, ih hrest⟩
        rcases mem_insertEntry hx with rfl | hx
        · show e.1 < name
          grind
        · exact he x hx

def empty : NameMap α := ⟨[], List.Pairwise.nil⟩

instance : EmptyCollection (NameMap α) := ⟨empty⟩
instance : Inhabited (NameMap α) := ⟨empty⟩

def insert (m : NameMap α) (name : String) (a : α) : NameMap α :=
  ⟨insertEntry name a m.entries, pairwise_insertEntry name a m.sorted⟩

def ofList (l : List (String × α)) : NameMap α :=
  l.foldl (fun m e => m.insert e.1 e.2) empty

def get? (m : NameMap α) (name : String) : Option α :=
  m.entries.lookup name

def isEmpty (m : NameMap α) : Bool := m.entries.isEmpty

def names (m : NameMap α) : List String := m.entries.map (·.1)

def map (f : α → β) (m : NameMap α) : NameMap β :=
  ⟨m.entries.map fun e => (e.1, f e.2), List.pairwise_map.2 m.sorted⟩

instance [BEq α] : BEq (NameMap α) := ⟨fun m n => m.entries == n.entries⟩

@[simp] theorem entries_empty : (empty : NameMap α).entries = [] := rfl

@[simp] theorem entries_map (f : α → β) (m : NameMap α) :
    (m.map f).entries = m.entries.map fun e => (e.1, f e.2) := rfl

end NameMap

end FlowArtifact
