import FlowArtifact.NameMap
import Mathlib.Data.List.Induction

/-!
# Filling maps

An entry whose name is greater than all names of a map is put behind them.  A map
that is filled with its own entries in their order is therefore itself.  In any
order, a map that is filled holds under each name the last value that was given
for it: two lists of entries fill the same map exactly when their last values are
the same.
-/

namespace FlowArtifact.NameMap

variable {α β : Type}

theorem insertEntry_eq_append {l : List (String × α)} {name : String} {a : α}
    (h : ∀ e ∈ l, e.1 < name) : insertEntry name a l = l ++ [(name, a)] := by
  induction l with
  | nil => rfl
  | cons e rest ih =>
      obtain ⟨he, hrest⟩ := List.forall_mem_cons.1 h
      have hne : name ≠ e.1 := by
        rintro rfl
        exact String.lt_irrefl _ he
      rw [insertEntry, if_neg (String.lt_asymm he), if_neg hne, ih hrest, List.cons_append]

theorem insert_eq_of_entries {m m' : NameMap α} {name : String} {a : α} {l : List (String × α)}
    (h : m'.entries = m.entries ++ (name, a) :: l) :
    m'.entries = (m.insert name a).entries ++ l := by
  have hsorted := m'.sorted
  rw [h, List.pairwise_append] at hsorted
  have hbefore : ∀ e ∈ m.entries, e.1 < name :=
    fun e he => hsorted.2.2 e he (name, a) List.mem_cons_self
  have hinsert : (m.insert name a).entries = m.entries ++ [(name, a)] :=
    insertEntry_eq_append hbefore
  rw [h, hinsert, List.append_assoc]
  rfl

theorem ofList_entries (m : NameMap α) : ofList m.entries = m := by
  have hfill (l : List (String × α)) (found : NameMap α) (h : m.entries = found.entries ++ l) :
      l.foldl (fun n e => n.insert e.1 e.2) found = m := by
    induction l generalizing found with
    | nil => exact ext (by simpa using h.symm)
    | cons e rest ih => exact ih _ (insert_eq_of_entries h)
  exact hfill m.entries empty rfl

theorem mem_insertEntry_iff {name : String} {a : α} {e : String × α} {l : List (String × α)}
    (h : l.Pairwise fun x y => x.1 < y.1) :
    e ∈ insertEntry name a l ↔ e = (name, a) ∨ e.1 ≠ name ∧ e ∈ l := by
  induction l with
  | nil => simp [insertEntry]
  | cons x rest ih =>
      obtain ⟨hx, hrest⟩ := List.pairwise_cons.1 h
      have hother {l : List (String × α)} (hl : ∀ y ∈ l, name < y.1) :
          e ∈ l ↔ e.1 ≠ name ∧ e ∈ l := by
        refine ⟨fun he => ⟨?_, he⟩, fun he => he.2⟩
        rintro rfl
        exact String.lt_irrefl _ (hl e he)
      rw [insertEntry]
      by_cases hlt : name < x.1
      · have hall : ∀ y ∈ x :: rest, name < y.1 :=
          List.forall_mem_cons.2 ⟨hlt, fun y hy => String.lt_trans hlt (hx y hy)⟩
        rw [if_pos hlt, List.mem_cons]
        exact or_congr_right (hother hall)
      · rw [if_neg hlt]
        by_cases heq : name = x.1
        · have hbehind : e ∈ rest ↔ e.1 ≠ name ∧ e ∈ rest := hother fun y hy => heq ▸ hx y hy
          rw [if_pos heq, List.mem_cons, List.mem_cons]
          apply or_congr_right
          rw [hbehind]
          constructor
          · exact fun he => ⟨he.1, .inr he⟩
          · rintro ⟨hne, rfl | he⟩
            · exact absurd heq.symm hne
            · exact he
        · rw [if_neg heq, List.mem_cons, List.mem_cons, ih hrest]
          constructor
          · rintro (rfl | rfl | ⟨hne, he⟩)
            · exact .inr ⟨Ne.symm heq, .inl rfl⟩
            · exact .inl rfl
            · exact .inr ⟨hne, .inr he⟩
          · rintro (rfl | ⟨hne, rfl | he⟩)
            · exact .inr (.inl rfl)
            · exact .inl rfl
            · exact .inr (.inr ⟨hne, he⟩)

/-- A map holds what was put in last and what it held under other names. -/
theorem mem_entries_insert {m : NameMap α} {name : String} {a : α} {e : String × α} :
    e ∈ (m.insert name a).entries ↔ e = (name, a) ∨ e.1 ≠ name ∧ e ∈ m.entries :=
  mem_insertEntry_iff m.sorted

theorem ext_of_mem {m n : NameMap α} (h : ∀ e, e ∈ m.entries ↔ e ∈ n.entries) : m = n := by
  have hnodup (m : NameMap α) : m.entries.Nodup := by
    refine m.sorted.imp fun {a b} hlt => ?_
    rintro rfl
    exact String.lt_irrefl _ hlt
  have hperm : m.entries.Perm n.entries :=
    (List.perm_ext_iff_of_nodup (hnodup m) (hnodup n)).2 h
  exact ext (hperm.eq_of_pairwise (fun _ _ _ _ hab hba => absurd hba (String.lt_asymm hab))
    m.sorted n.sorted)

theorem insert_comm {name name' : String} (h : name ≠ name') (m : NameMap α) (a a' : α) :
    (m.insert name a).insert name' a' = (m.insert name' a').insert name a := by
  apply ext_of_mem
  intro e
  simp only [mem_entries_insert]
  constructor
  · rintro (rfl | ⟨hne, rfl | ⟨hne', he⟩⟩)
    · exact .inr ⟨Ne.symm h, .inl rfl⟩
    · exact .inl rfl
    · exact .inr ⟨hne', .inr ⟨hne, he⟩⟩
  · rintro (rfl | ⟨hne, rfl | ⟨hne', he⟩⟩)
    · exact .inr ⟨h, .inl rfl⟩
    · exact .inl rfl
    · exact .inr ⟨hne', .inr ⟨hne, he⟩⟩

theorem map_eq_self {m : NameMap α} {f : α → α} (h : ∀ e ∈ m.entries, f e.2 = e.2) :
    m.map f = m := by
  apply ext
  rw [entries_map]
  calc
    m.entries.map (fun e => (e.1, f e.2)) = m.entries.map id :=
      List.map_congr_left fun e he => by rw [h e he, id]
    _ = m.entries := List.map_id _

/-! ## The last value of a name -/

def last? (l : List (String × α)) (name : String) : Option α := l.reverse.lookup name

/-- The lists give the same names and, for each of them, the same value last. -/
def SameLast (l l' : List (String × α)) : Prop := ∀ name, last? l name = last? l' name

theorem last?_append (l l' : List (String × α)) (name : String) :
    last? (l ++ l') name = (last? l' name).or (last? l name) := by
  unfold last?
  rw [List.reverse_append, List.lookup_append]

theorem last?_singleton (e : String × α) (name : String) :
    last? [e] name = if name = e.1 then some e.2 else none := by
  unfold last?
  rw [List.reverse_singleton, List.lookup_cons]
  by_cases h : name = e.1
  · rw [if_pos h, beq_iff_eq.2 h]
  · rw [if_neg h, beq_false_of_ne h, List.lookup_nil]

theorem last?_map (f : α → β) (l : List (String × α)) (name : String) :
    last? (l.map fun e => (e.1, f e.2)) name = (last? l name).map f := by
  induction l using List.reverseRecOn with
  | nil => rfl
  | append_singleton l e ih =>
      rw [List.map_append, last?_append, last?_append, ih, List.map_singleton, last?_singleton,
        last?_singleton]
      by_cases h : name = e.1 <;> simp [h]

theorem mem_of_last? {l : List (String × α)} {name : String} {a : α}
    (h : last? l name = some a) : (name, a) ∈ l := by
  induction l using List.reverseRecOn with
  | nil => cases h
  | append_singleton l e ih =>
      rw [last?_append, last?_singleton] at h
      rw [List.mem_append, List.mem_singleton]
      by_cases hname : name = e.1
      · obtain rfl : e.2 = a := by simpa [hname] using h
        exact .inr (Prod.ext hname rfl)
      · exact .inl (ih (by simpa [hname] using h))

theorem SameLast.append_left {ps qs : List (String × α)} (h : SameLast ps qs)
    (l : List (String × α)) : SameLast (l ++ ps) (l ++ qs) := by
  intro name
  rw [last?_append, last?_append, h name]

theorem mem_ofList {l : List (String × α)} {name : String} {a : α} :
    (name, a) ∈ (ofList l).entries ↔ last? l name = some a := by
  -- The induction takes entries from the end, where the one that counts is found first.
  induction l using List.reverseRecOn with
  | nil => exact ⟨nofun, nofun⟩
  | append_singleton l e ih =>
      have hlast : ofList (l ++ [e]) = (ofList l).insert e.1 e.2 := by
        unfold ofList
        rw [List.foldl_append]
        rfl
      rw [hlast, mem_entries_insert, ih, last?_append, last?_singleton, Prod.mk.injEq]
      by_cases h : name = e.1
      · simp only [h, true_and, ne_eq, not_true_eq_false, false_and, or_false, if_true,
          Option.some_or, Option.some.injEq]
        exact eq_comm
      · simp [h]

/-- Lists of entries fill the same map exactly when their last values are the same. -/
theorem ofList_eq_iff {l l' : List (String × α)} : ofList l = ofList l' ↔ SameLast l l' := by
  constructor
  · intro h name
    apply Option.ext
    intro a
    rw [← mem_ofList, h, mem_ofList]
  · intro h
    apply ext_of_mem
    rintro ⟨name, a⟩
    rw [mem_ofList, mem_ofList, h name]

/-- A map that is filled further is filled with its own entries first. -/
theorem foldl_insert_eq_ofList (m : NameMap α) (l : List (String × α)) :
    l.foldl (fun n e => n.insert e.1 e.2) m = ofList (m.entries ++ l) := by
  have hself := ofList_entries m
  unfold ofList at hself ⊢
  rw [List.foldl_append, hself]

end FlowArtifact.NameMap
