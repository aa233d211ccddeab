import FlowArtifact.Proofs.Doc
import FlowArtifact.Proofs.Doc.Fields
import Mathlib.Data.List.Pairwise

/-!
# The order of fields

Two documents are the same but for the order of fields if the records in them have
the same fields in any order; no name may come twice in a record.  The readers do
not see the difference.  A reader of fields goes through each of the lists in turn,
so it is enough that it reads each field in the same way and that fields with
different names may be read in either order.
-/

namespace FlowArtifact.Doc

mutual
/-- The documents are the same but for the order of fields; no record repeats a name. -/
inductive Reordered : Doc → Doc → Prop
  | scalar (s : Scalar) : Reordered (.scalar s) (.scalar s)
  | list {ds es : List Doc} (hitems : ReorderedItems ds es) : Reordered (.list ds) (.list es)
  | record {l m n : List (String × Doc)} (hnames : (l.map (·.1)).Nodup)
      (hfields : ReorderedFields l m) (hperm : m.Perm n) : Reordered (.named l) (.named n)

inductive ReorderedItems : List Doc → List Doc → Prop
  | nil : ReorderedItems [] []
  | cons {d e : Doc} {ds es : List Doc} (hitem : Reordered d e) (hrest : ReorderedItems ds es) :
      ReorderedItems (d :: ds) (e :: es)

/-- The same names in the same order, with documents that are the same but for their fields. -/
inductive ReorderedFields : List (String × Doc) → List (String × Doc) → Prop
  | nil : ReorderedFields [] []
  | cons {name : String} {d e : Doc} {l m : List (String × Doc)} (hvalue : Reordered d e)
      (hrest : ReorderedFields l m) : ReorderedFields ((name, d) :: l) ((name, e) :: m)
end

mutual
theorem Reordered.over : {d e : Doc} → d.Reordered e →
    d.Over (fun _ => True) ∧ e.Over fun _ => True
  | _, _, .scalar s => ⟨trivial, trivial⟩
  | _, _, .list hitems => by
    rw [over_list, over_list]
    exact hitems.over
  | _, _, .record hnames hfields hperm => by
    obtain ⟨hl, hm⟩ := hfields.over
    rw [over_named, over_named]
    exact ⟨hl, fun e he => hm e (hperm.mem_iff.2 he)⟩

theorem ReorderedItems.over : {ds es : List Doc} → ReorderedItems ds es →
    (∀ d ∈ ds, d.Over fun _ => True) ∧ ∀ e ∈ es, e.Over fun _ => True
  | _, _, .nil => by simp
  | _, _, .cons hitem hrest => by
    rw [List.forall_mem_cons, List.forall_mem_cons]
    exact ⟨⟨hitem.over.1, hrest.over.1⟩, hitem.over.2, hrest.over.2⟩

theorem ReorderedFields.over : {l m : List (String × Doc)} → ReorderedFields l m →
    (∀ e ∈ l, e.2.Over fun _ => True) ∧ ∀ e ∈ m, e.2.Over fun _ => True
  | _, _, .nil => by simp
  | _, _, .cons hvalue hrest => by
    rw [List.forall_mem_cons, List.forall_mem_cons]
    exact ⟨⟨hvalue.over.1, hrest.over.1⟩, hvalue.over.2, hrest.over.2⟩
end

theorem ReorderedFields.names_eq :
    {l m : List (String × Doc)} → ReorderedFields l m → l.map (·.1) = m.map (·.1)
  | _, _, .nil => rfl
  | _, _, .cons _ hrest => by rw [List.map_cons, List.map_cons, hrest.names_eq]

theorem ReorderedFields.length_eq {l m : List (String × Doc)} (h : ReorderedFields l m) :
    l.length = m.length := by
  rw [← List.length_map (·.1), h.names_eq, List.length_map]

theorem ReorderedFields.filter (p : String → Bool) : {l m : List (String × Doc)} →
    ReorderedFields l m → ReorderedFields (l.filter (p ·.1)) (m.filter (p ·.1))
  | _, _, .nil => .nil
  | _, _, @ReorderedFields.cons name _ _ _ _ hvalue hrest => by
    rw [List.filter_cons, List.filter_cons]
    cases p name with
    | true => exact .cons hvalue (hrest.filter p)
    | false => exact hrest.filter p

/-- Fields are left out of both records. -/
theorem Reordered.record_filter {l m n : List (String × Doc)} (p : String → Bool)
    (hnames : (l.map (·.1)).Nodup) (hfields : ReorderedFields l m) (hperm : m.Perm n) :
    Reordered (.named (l.filter (p ·.1))) (.named (n.filter (p ·.1))) :=
  .record (hnames.sublist (List.filter_sublist.map _)) (hfields.filter p) (hperm.filter _)

/-! ## Texts and lists -/

section
variable {d e : Doc} (h : d.Reordered e)
include h

theorem asText_reordered : (asText d).toOption = (asText e).toOption := by
  cases h <;> rfl

theorem asOptionalText_reordered : (asOptionalText d).toOption = (asOptionalText e).toOption := by
  cases h <;> rfl

end

theorem ReorderedItems.forall₂ {p : Doc → Doc → Prop} (h : ∀ d e : Doc, d.Reordered e → p d e) :
    {ds es : List Doc} → ReorderedItems ds es → List.Forall₂ p ds es
  | _, _, .nil => .nil
  | _, _, .cons hitem hrest => .cons (h _ _ hitem) (hrest.forall₂ h)

theorem ReorderedFields.forall₂ {p : Doc → Doc → Prop} (h : ∀ d e : Doc, d.Reordered e → p d e) :
    {l m : List (String × Doc)} → ReorderedFields l m →
      List.Forall₂ (fun e f => e.1 = f.1 ∧ p e.2 f.2) l m
  | _, _, .nil => .nil
  | _, _, .cons hvalue hrest => .cons ⟨rfl, h _ _ hvalue⟩ (hrest.forall₂ h)

section
variable {α : Type} {read : Doc → Fit α}

theorem mapM_congr {ds es : List Doc}
    (h : List.Forall₂ (fun d e => (read d).toOption = (read e).toOption) ds es) :
    (ds.mapM read).toOption = (es.mapM read).toOption := by
  induction h with
  | nil => rfl
  | cons hitem _ ih => simp only [List.mapM_cons, toOption_bind, hitem, ih]

theorem bind_asList_reordered (hread : ∀ d e : Doc, d.Reordered e →
      (read d).toOption = (read e).toOption) {d e : Doc} (h : d.Reordered e) :
    (asList d >>= fun ds => ds.mapM read).toOption =
      (asList e >>= fun ds => ds.mapM read).toOption := by
  cases h with
  | list hitems => exact mapM_congr (hitems.forall₂ hread)
  | _ => rfl

theorem readEntries_congr {l m : List (String × Doc)}
    (h : List.Forall₂ (fun e f => e.1 = f.1 ∧ (read e.2).toOption = (read f.2).toOption) l m)
    (found : NameMap α) :
    (readEntries read found (keyed l)).toOption = (readEntries read found (keyed m)).toOption := by
  induction h generalizing found with
  | nil => rfl
  | cons hfield _ ih =>
      simp only [keyed] at ih
      simp only [keyed, List.map_cons, readEntries, Head.name?, toOption_bind, hfield.1, hfield.2,
        ih]

end

/-! ## Permuted fields -/

section
variable {α : Type} {read : Doc → Fit α}

theorem toOption_readEntries_cons (found : NameMap α) (e : String × Doc)
    (l : List (String × Doc)) :
    (readEntries read found (keyed (e :: l))).toOption =
      (read e.2).toOption.bind fun a =>
        (readEntries read (found.insert e.1 a) (keyed l)).toOption := by
  simp only [keyed, List.map_cons, readEntries, Head.name?, toOption_bind]

theorem readEntries_perm {l m : List (String × Doc)} (hperm : l.Perm m)
    (hnames : (l.map (·.1)).Nodup) (found : NameMap α) :
    (readEntries read found (keyed l)).toOption = (readEntries read found (keyed m)).toOption := by
  induction hperm generalizing found with
  | nil => rfl
  | cons e _ ih =>
      simp only [toOption_readEntries_cons, ih (List.nodup_cons.1 hnames).2]
  | swap e f l =>
      have hne : f.1 ≠ e.1 := by
        rintro heq
        simp [heq] at hnames
      simp only [toOption_readEntries_cons, NameMap.insert_comm hne]
      exact Option.bind_comm _ _
  | trans hl _ ihl ihm =>
      rw [ihl hnames, ihm ((hl.map _).nodup_iff.1 hnames)]

end

theorem asNameMap_reordered {α : Type} {read : Doc → Fit α}
    (hread : ∀ d e : Doc, d.Reordered e → (read d).toOption = (read e).toOption) {d e : Doc}
    (h : d.Reordered e) : (asNameMap read d).toOption = (asNameMap read e).toOption := by
  cases h with
  | record hnames hfields hperm =>
      have hnames' := hfields.names_eq ▸ hnames
      exact (readEntries_congr (hfields.forall₂ hread) _).trans
        (readEntries_perm hperm hnames' _)
  | _ => rfl

section
variable {σ : Type} {nameOf : Head → Fit (Option String)} {set : String → Doc → σ → Fit σ}
  {known : List String}

/-- Two fields may be read in either order. -/
def Commute (set : String → Doc → σ → Fit σ) (name name' : String) : Prop :=
  ∀ d d' a, ((set name d a).toOption.bind fun b => (set name' d' b).toOption) =
    (set name' d' a).toOption.bind fun b => (set name d b).toOption

instance : Std.Symm (Commute set) where
  symm _ _ h d d' a := (h d' d a).symm

/-- A field is read by itself, and what was read is put into the value. -/
def Puts {α : Type} (set : String → Doc → σ → Fit σ) (name : String) (read : Doc → Fit α)
    (put : σ → α → σ) : Prop :=
  ∀ d a, set name d a = (read d).map (put a)

section
variable {α β : Type} {name name' : String} {read : Doc → Fit α} {read' : Doc → Fit β}
  {put : σ → α → σ} {put' : σ → β → σ}

theorem Puts.toOption_eq (h : Puts set name read put) (d : Doc) (a : σ) :
    (set name d a).toOption = (read d).toOption.map (put a) := by
  rw [h d a, toOption_map]

theorem Puts.reordered (h : Puts set name read put)
    (hread : ∀ d e : Doc, d.Reordered e → (read d).toOption = (read e).toOption)
    (d e : Doc) (hd : d.Reordered e) (a : σ) :
    (set name d a).toOption = (set name e a).toOption := by
  rw [h.toOption_eq, h.toOption_eq, hread d e hd]

theorem Puts.commute (h : Puts set name read put) (h' : Puts set name' read' put')
    (hput : ∀ a x y, put' (put a x) y = put (put' a y) x) : Commute set name name' := by
  intro d d' a
  simp only [h.toOption_eq, h'.toOption_eq]
  cases (read d).toOption <;> cases (read' d').toOption <;> simp [hput]

end

/-- Neither the order of the known fields nor the order inside them is seen. -/
structure OrderFree (set : String → Doc → σ → Fit σ) (known : List String) : Prop where
  read : ∀ name ∈ known, ∀ d e : Doc, d.Reordered e →
    ∀ a, (set name d a).toOption = (set name e a).toOption
  commute : known.Pairwise (Commute set)

theorem orderFree_pair {α β : Type} {name name' : String} {read : Doc → Fit α}
    {read' : Doc → Fit β} {put : σ → α → σ} {put' : σ → β → σ} (h : Puts set name read put)
    (h' : Puts set name' read' put') (hput : ∀ a x y, put' (put a x) y = put (put' a y) x)
    (hread : ∀ d e : Doc, d.Reordered e → (read d).toOption = (read e).toOption)
    (hread' : ∀ d e : Doc, d.Reordered e → (read' d).toOption = (read' e).toOption) :
    OrderFree set [name, name'] where
  read := by
    rw [List.forall_mem_cons, List.forall_mem_singleton]
    exact ⟨h.reordered hread, h'.reordered hread'⟩
  commute := List.pairwise_pair.2 (h.commute h' hput)

theorem toOption_setAll_cons (init : σ) (e : String × Doc) (l : List (String × Doc)) :
    (setAll set init (e :: l)).toOption =
      (set e.1 e.2 init).toOption.bind fun a => (setAll set a l).toOption := by
  rw [setAll, List.foldlM_cons, toOption_bind]
  rfl

theorem setAll_perm {l m : List (String × Doc)} (hperm : l.Perm m)
    (hset : ∀ e ∈ l, ∀ f ∈ l, e.1 ≠ f.1 → Commute set e.1 f.1) (hnames : (l.map (·.1)).Nodup)
    (init : σ) : (setAll set init l).toOption = (setAll set init m).toOption := by
  induction hperm generalizing init with
  | nil => rfl
  | cons e _ ih =>
      have hrest := ih (fun e he f hf => hset e (.tail _ he) f (.tail _ hf))
        (List.nodup_cons.1 hnames).2
      simp only [toOption_setAll_cons, hrest]
  | swap e f l =>
      have hne : f.1 ≠ e.1 := by
        rintro heq
        simp [heq] at hnames
      have hswap := hset f (.head _) e (.tail _ (.head _)) hne f.2 e.2 init
      simp only [toOption_setAll_cons, ← Option.bind_assoc, hswap]
  | trans hl _ ihl ihm =>
      rw [ihl hset hnames, ihm (fun e he f hf => hset e (hl.mem_iff.2 he) f (hl.mem_iff.2 hf))
        ((hl.map _).nodup_iff.1 hnames)]

theorem readFields_congr
    (hname : ∀ s, nameOf (.scalar (.text s)) = .ok (if s ∈ known then some s else none))
    {l m : List (String × Doc)} (h : List.Forall₂ (fun e f => e.1 = f.1 ∧
      (e.1 ∈ known → ∀ a, (set e.1 e.2 a).toOption = (set e.1 f.2 a).toOption)) l m)
    (seen : List String) (init : σ) :
    (readFields nameOf set seen init (keyed l)).toOption =
      (readFields nameOf set seen init (keyed m)).toOption := by
  induction h generalizing seen init with
  | nil => rfl
  | @cons e f l m hfield _ ih =>
      obtain ⟨heq, hset⟩ := hfield
      simp only [keyed] at ih
      simp only [keyed, List.map_cons, readFields, ← heq, hname, ok_bind]
      by_cases hknown : e.1 ∈ known
      · rw [if_pos hknown]
        by_cases hseen : e.1 ∈ seen
        · simp only [hseen, if_true, throw_eq_error, toOption_error]
        · simp only [hseen, if_false, toOption_bind, hset hknown, ih]
      · rw [if_neg hknown]
        exact ih seen init

/-- The fields of a record without repeated names are read in any order, to the same end. -/
theorem readFields_perm
    (hname : ∀ s, nameOf (.scalar (.text s)) = .ok (if s ∈ known then some s else none))
    (hcommute : known.Pairwise (Commute set)) {l m : List (String × Doc)} (hperm : l.Perm m)
    (hnames : (l.map (·.1)).Nodup) (init : σ) :
    ∃ (r : Option σ) (seen seen' : List String), (∀ name, name ∈ seen ↔ name ∈ seen') ∧
      (readFields nameOf set [] init (keyed l)).toOption = r.map (·, seen) ∧
      (readFields nameOf set [] init (keyed m)).toOption = r.map (·, seen') := by
  have hselect : (select known l).Perm (select known m) := hperm.filter _
  have hnodup : ((select known l).map (·.1)).Nodup :=
    hnames.sublist (List.filter_sublist.map _)
  have hread {l : List (String × Doc)} (hnodup : ((select known l).map (·.1)).Nodup) :
      (readFields nameOf set [] init (keyed l)).toOption =
        (setAll set init (select known l)).toOption.map
          (·, ((select known l).map (·.1)).reverse) := by
    rw [keyed, readFields_named hname l [] init hnodup (by simp), List.append_nil]
    cases setAll set init (select known l) <;> rfl
  have hknown : ∀ e ∈ select known l, e.1 ∈ known := by
    intro e he
    simpa using (List.mem_filter.1 he).2
  have hall := setAll_perm hselect
    (fun e he f hf hne => hcommute.forall (hknown e he) (hknown f hf) hne) hnodup init
  refine ⟨_, _, ((select known m).map (·.1)).reverse, fun name => ?_, hread hnodup, ?_⟩
  · rw [List.mem_reverse, List.mem_reverse, (hselect.map _).mem_iff]
  · rw [hread ((hselect.map _).nodup_iff.1 hnodup), hall]

theorem bind_readFields_perm {τ : Type}
    (hname : ∀ s, nameOf (.scalar (.text s)) = .ok (if s ∈ known then some s else none))
    (hcommute : known.Pairwise (Commute set)) {l m : List (String × Doc)} (hperm : l.Perm m)
    (hnames : (l.map (·.1)).Nodup) (init : σ) {next next' : σ × List String → Fit τ}
    (hnext : ∀ a seen seen', (∀ name, name ∈ seen ↔ name ∈ seen') →
      (next (a, seen)).toOption = (next' (a, seen')).toOption) :
    (readFields nameOf set [] init (keyed l) >>= next).toOption =
      (readFields nameOf set [] init (keyed m) >>= next').toOption := by
  obtain ⟨r, seen, seen', hseen, hl, hm⟩ := readFields_perm hname hcommute hperm hnames init
  rw [toOption_bind, toOption_bind, hl, hm]
  cases r with
  | none => rfl
  | some a => exact hnext a seen seen' hseen

theorem bind_readFields_congr_perm {τ : Type}
    (hname : ∀ s, nameOf (.scalar (.text s)) = .ok (if s ∈ known then some s else none))
    (hcommute : known.Pairwise (Commute set)) {l m n : List (String × Doc)}
    (hcongr : List.Forall₂ (fun e f => e.1 = f.1 ∧
      (e.1 ∈ known → ∀ a, (set e.1 e.2 a).toOption = (set e.1 f.2 a).toOption)) l m)
    (hperm : m.Perm n) (hnames : (m.map (·.1)).Nodup) (init : σ)
    {next next' : σ × List String → Fit τ}
    (hnext : ∀ a seen seen', (∀ name, name ∈ seen ↔ name ∈ seen') →
      (next (a, seen)).toOption = (next' (a, seen')).toOption) :
    (readFields nameOf set [] init (keyed l) >>= next).toOption =
      (readFields nameOf set [] init (keyed n) >>= next').toOption := by
  rw [← bind_readFields_perm hname hcommute hperm hnames init hnext, toOption_bind,
    toOption_bind, readFields_congr hname hcongr]

/-- The fields of records that are the same but for their order are read to the same end. -/
theorem bind_readFields_reordered {τ : Type}
    (hname : ∀ s, nameOf (.scalar (.text s)) = .ok (if s ∈ known then some s else none))
    (hset : OrderFree set known) {l m n : List (String × Doc)} (hnames : (l.map (·.1)).Nodup)
    (hfields : ReorderedFields l m) (hperm : m.Perm n) (init : σ)
    {next next' : σ × List String → Fit τ}
    (hnext : ∀ a seen seen', (∀ name, name ∈ seen ↔ name ∈ seen') →
      (next (a, seen)).toOption = (next' (a, seen')).toOption) :
    (readFields nameOf set [] init (keyed l) >>= next).toOption =
      (readFields nameOf set [] init (keyed n) >>= next').toOption := by
  have hcongr := (hfields.forall₂ fun d e h name hname => hset.read name hname d e h).imp
    fun e _ h => And.intro h.1 (h.2 e.1)
  exact bind_readFields_congr_perm hname hset.commute hcongr hperm (hfields.names_eq ▸ hnames)
    init hnext

theorem require_congr {seen seen' : List String} (h : ∀ name, name ∈ seen ↔ name ∈ seen')
    (names : List String) : require names seen = require names seen' := by
  simp only [require, h]

end

end FlowArtifact.Doc
