import FlowArtifact.Doc.Fields
import FlowArtifact.Proofs.Doc
import FlowArtifact.Proofs.NameMap
import FlowArtifact.Proofs.Outcome
import Mathlib.Data.List.Nodup

/-!
# Reading the fields that were written

The readers go through the fields of a record, pass over those that they do not
know, and read each of the others once.  On named fields whose known names are
all different this is a fold over the known fields alone.
-/

namespace FlowArtifact

namespace Doc

def keyed (fields : List (String × Doc)) : List (Head × Doc) :=
  fields.map fun e => (.scalar (.text e.1), e.2)

theorem named_eq_record (fields : List (String × Doc)) : named fields = .record (keyed fields) :=
  rfl

def select (known : List String) (fields : List (String × Doc)) : List (String × Doc) :=
  fields.filter (·.1 ∈ known)

theorem select_append (known : List String) (l m : List (String × Doc)) :
    select known (l ++ m) = select known l ++ select known m :=
  List.filter_append l m

theorem select_cons_of_mem {known : List String} {e : String × Doc} {l : List (String × Doc)}
    (h : e.1 ∈ known) : select known (e :: l) = e :: select known l := by
  simp [select, h]

theorem select_cons_of_notMem {known : List String} {e : String × Doc} {l : List (String × Doc)}
    (h : e.1 ∉ known) : select known (e :: l) = select known l := by
  simp [select, h]

theorem select_eq_self {known : List String} {fields : List (String × Doc)}
    (h : (fields.map (·.1)).Sublist known) : select known fields = fields := by
  unfold select
  rw [List.filter_eq_self]
  intro e he
  simpa using h.subset (List.mem_map_of_mem he)

theorem select_eq_nil {known names : List String} {fields : List (String × Doc)}
    (h : (fields.map (·.1)).Sublist names) (hdisjoint : ∀ name ∈ names, name ∉ known) :
    select known fields = [] := by
  unfold select
  rw [List.filter_eq_nil_iff]
  intro e he
  simpa using hdisjoint _ (h.subset (List.mem_map_of_mem he))

section Reading

variable {σ : Type} {nameOf : Head → Fit (Option String)} {set : String → Doc → σ → Fit σ}
  {known : List String}

def setAll (set : String → Doc → σ → Fit σ) (init : σ) (fields : List (String × Doc)) : Fit σ :=
  fields.foldlM (fun a e => set e.1 e.2 a) init

theorem setAll_append (init : σ) (l m : List (String × Doc)) :
    setAll set init (l ++ m) = (setAll set init l >>= fun a => setAll set a m) :=
  List.foldlM_append

@[simp] theorem setAll_nil (init : σ) : setAll set init [] = .ok init := rfl

@[simp] theorem setAll_singleton (init : σ) (name : String) (d : Doc) :
    setAll set init [(name, d)] = set name d init := by
  rw [setAll, List.foldlM_cons]
  cases set name d init <;> rfl

/-- Named fields are read one after another if no known name comes twice. -/
theorem readFields_named
    (hname : ∀ s, nameOf (.scalar (.text s)) = .ok (if s ∈ known then some s else none))
    (fields : List (String × Doc)) (seen : List String) (init : σ)
    (hnodup : ((select known fields).map (·.1)).Nodup)
    (hfresh : ∀ e ∈ select known fields, e.1 ∉ seen) :
    readFields nameOf set seen init (fields.map fun e => (.scalar (.text e.1), e.2)) =
      (setAll set init (select known fields) >>= fun a =>
        .ok (a, ((select known fields).map (·.1)).reverse ++ seen)) := by
  induction fields generalizing seen init with
  | nil => rfl
  | cons e rest ih =>
      obtain ⟨name, d⟩ := e
      rw [List.map_cons, readFields, hname, ok_bind]
      -- What was seen stands reversed in front, so a known name is new if the names do not repeat.
      by_cases hknown : name ∈ known
      · have hselect : select known ((name, d) :: rest) = (name, d) :: select known rest :=
          select_cons_of_mem hknown
        rw [hselect] at hnodup hfresh ⊢
        rw [List.map_cons, List.nodup_cons] at hnodup
        obtain ⟨hunseen, hfresh⟩ := List.forall_mem_cons.1 hfresh
        rw [if_pos hknown]
        simp only [hunseen, if_false, setAll, List.foldlM_cons]
        cases hset : set name d init with
        | error m => rfl
        | ok next =>
            rw [ok_bind, ok_bind, ih (name :: seen) next hnodup.2 _]
            · simp [setAll]
            · intro e he
              rw [List.mem_cons, not_or]
              refine ⟨?_, hfresh e he⟩
              rintro rfl
              exact hnodup.1 (List.mem_map.2 ⟨e, he, rfl⟩)
      · have hselect : select known ((name, d) :: rest) = select known rest :=
          select_cons_of_notMem hknown
        rw [hselect] at hnodup hfresh ⊢
        rw [if_neg hknown]
        exact ih seen init hnodup hfresh

/-- Fields that were written in the order of the known names, among others, are read. -/
theorem readFields_written {fields written : List (String × Doc)} {init a : σ}
    (hname : ∀ s, nameOf (.scalar (.text s)) = .ok (if s ∈ known then some s else none))
    (hknown : known.Nodup) (hselect : select known fields = written)
    (hwritten : (written.map (·.1)).Sublist known) (hset : setAll set init written = .ok a) :
    readFields nameOf set [] init (fields.map fun e => (.scalar (.text e.1), e.2)) =
      .ok (a, (written.map (·.1)).reverse) := by
  rw [readFields_named hname fields [] init, hselect, hset, ok_bind, List.append_nil]
  · rw [hselect]
    exact hwritten.nodup hknown
  · simp

theorem fieldName_text (known : List String) (s : String) :
    fieldName known (.scalar (.text s)) = .ok (if s ∈ known then some s else none) := rfl

theorem textFieldName_text (known : List String) (s : String) :
    textFieldName known (.scalar (.text s)) = .ok (if s ∈ known then some s else none) := rfl

theorem require_eq_ok {names seen : List String} (h : ∀ name ∈ names, name ∈ seen) :
    require names seen = .ok () := by
  have hfind : names.find? (· ∉ seen) = none := by simpa [List.find?_eq_none] using h
  rw [require, hfind]

end Reading

section Entries

variable {α β : Type} {read : Doc → Fit α} {write : β → Doc} {f : β → α}

theorem readEntries_named (l : List (String × β)) (found m : NameMap α)
    (hread : ∀ e ∈ l, read (write e.2) = .ok (f e.2))
    (hm : m.entries = found.entries ++ l.map fun e => (e.1, f e.2)) :
    readEntries read found (l.map fun e => (.scalar (.text e.1), write e.2)) = .ok m := by
  induction l generalizing found with
  | nil =>
      have heq : found = m := NameMap.ext (by simpa using hm.symm)
      rw [heq]
      rfl
  | cons e rest ih =>
      obtain ⟨he, hrest⟩ := List.forall_mem_cons.1 hread
      simp only [List.map_cons, readEntries, Head.name?, he, ok_bind]
      exact ih _ hrest (NameMap.insert_eq_of_entries hm)

theorem asNameMap_named {m : NameMap β} (hread : ∀ e ∈ m.entries, read (write e.2) = .ok (f e.2)) :
    asNameMap read (.named (m.map write).entries) = .ok (m.map f) := by
  have hentries := readEntries_named m.entries .empty (m.map f) hread (by simp)
  simpa [asNameMap, named, Function.comp_def] using hentries

theorem mapM_read {l : List β} (hread : ∀ b ∈ l, read (write b) = .ok (f b)) :
    (l.map write).mapM read = .ok (l.map f) := by
  induction l with
  | nil => rfl
  | cons b rest ih =>
      obtain ⟨hb, hrest⟩ := List.forall_mem_cons.1 hread
      simp [hb, ih hrest]

end Entries

end Doc

/-! ## Fields that may be left out -/

theorem names_optionalField {α : Type} (name : String) (write : α → Doc) (o : Option α) :
    ((optionalField name write o).map (·.1)).Sublist [name] := by
  cases o <;> simp [optionalField]

theorem names_listField (name : String) (items : List Doc) :
    ((listField name items).map (·.1)).Sublist [name] := by
  cases items <;> simp [listField]

theorem Doc.mapNamed_optionalField {α : Type} (g : Scalar → Scalar) (name : String)
    (write : α → Doc) (o : Option α) : mapNamed g (optionalField name write o) =
      optionalField name (fun v => (write v).mapScalars g) o := by
  cases o <;> rfl

theorem Doc.mapNamed_listField (g : Scalar → Scalar) (name : String) (items : List Doc) :
    mapNamed g (listField name items) = listField name (items.map (mapScalars g)) := by
  cases items <;> simp [listField]

section
variable {p : Doc → Prop}

theorem forall_mem_optionalField {α : Type} {name : String} {write : α → Doc} {o : Option α}
    (h : ∀ v, o = some v → p (write v)) : ∀ e ∈ optionalField name write o, p e.2 := by
  cases o with
  | none => simp [optionalField]
  | some v => simpa [optionalField] using h v rfl

theorem forall_mem_listField {name : String} {items : List Doc} (h : p (.list items)) :
    ∀ e ∈ listField name items, p e.2 := by
  unfold listField
  split
  · simp
  · simpa using h

end

section
open Doc (setAll)

variable {σ : Type} {set : String → Doc → σ → Fit σ}

/-- A field that was left out leaves the value as it is, and one that was written changes it. -/
theorem setAll_unless {p : Prop} [Decidable p] {name : String} {d : Doc} {init a : σ}
    (hout : p → a = init) (hset : ¬p → set name d init = .ok a) :
    setAll set init (if p then [] else [(name, d)]) = .ok a := by
  split
  · rename_i hp
    rw [hout hp, Doc.setAll_nil]
  · rename_i hp
    rw [Doc.setAll_singleton, hset hp]

theorem setAll_listField {α : Type} {name : String} {write : α → Doc} {l : List α}
    {init a : σ} (hnil : l = [] → a = init) (hset : set name (.list (l.map write)) init = .ok a) :
    setAll set init (listField name (l.map write)) = .ok a := by
  refine setAll_unless (fun h => hnil ?_) fun _ => hset
  simpa using h

theorem setAll_optionalField {α : Type} {name : String} {write : α → Doc} {o : Option α}
    {init a : σ} (hnone : o = none → a = init)
    (hsome : ∀ v, o = some v → set name (write v) init = .ok a) :
    setAll set init (optionalField name write o) = .ok a := by
  cases o with
  | none => rw [hnone rfl, optionalField, Doc.setAll_nil]
  | some v => rw [optionalField, Doc.setAll_singleton, hsome v rfl]

end

end FlowArtifact
