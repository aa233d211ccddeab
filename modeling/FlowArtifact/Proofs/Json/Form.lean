import FlowArtifact.Proofs.Doc.Fields
import FlowArtifact.Proofs.Json.Lexing
import FlowArtifact.Proofs.Source.Rendering
import FlowArtifact.Source.Form

/-!
# Reading written records

What a reader makes of a document is said of every source that JSON gives of it: the
document is read to a value, or it is refused, and for what.  A record whose fields
stand in the order of its form, optional ones left out, is read to what its fields
fill in one after another.
-/

namespace FlowArtifact

open Source (RendersItems RendersFields)

namespace Json

variable {α β : Type} {P : Cause → Prop} {d : Doc}

/-- Every source of the document is read to `a`. -/
def Reads (read : Source → Read α) (d : Doc) (a : α) : Prop :=
  ∀ s, s.Renders restored? d → read s = .ok a

/-- Every source of the document is refused for a cause of this kind. -/
def Refuses (P : Cause → Prop) (read : Source → Read α) (d : Doc) : Prop :=
  ∀ s, s.Renders restored? d → ∃ f, read s = .error f ∧ P f.cause

/-- A source of the document is refused for causes of this kind only. -/
def Faults (P : Cause → Prop) (read : Source → Read α) (d : Doc) : Prop :=
  ∀ s, s.Renders restored? d → ∀ f, read s = .error f → P f.cause

theorem faults_of_reads {read : Source → Read α} {a : α} (h : Reads read d a) :
    Faults P read d := by
  intro s hs f hf
  rw [h s hs] at hf
  cases hf

theorem faults_of_refuses {read : Source → Read α} (h : Refuses P read d) : Faults P read d := by
  intro s hs f hf
  obtain ⟨f', hf', hcause⟩ := h s hs
  rw [hf] at hf'
  cases hf'
  exact hcause

theorem Reads.map {read : Source → Read α} {a : α} (h : Reads read d a) (g : α → β) :
    Reads (fun s => do let x ← read s; pure (g x)) d (g a) := by
  intro s hs
  simp only [h s hs, ok_bind, pure_eq_ok]

theorem Refuses.bind {read : Source → Read α} (h : Refuses P read d) (g : α → Read β) :
    Refuses P (fun s => do let x ← read s; g x) d := by
  intro s hs
  obtain ⟨f, hf, hcause⟩ := h s hs
  exact ⟨f, by simp only [hf, error_bind], hcause⟩

theorem cause_settle (p : Place) (f : Fault) : (f.settle p).cause = f.cause := by
  unfold Fault.settle
  split <;> rfl

/-! ## Scalars -/

theorem isText_of_renders {s : Source} {t : String} (h : s.Renders restored? (.text t)) :
    s.IsText t := by
  have htext : restored? (.text t) = some (.text t) := rfl
  exact Source.isText_of_renders htext h

theorem reads_text (t : String) : Reads Source.text (.text t) t := by
  intro s hs
  simp only [Source.text, Source.asText?_eq_some (isText_of_renders hs), pure_eq_ok]

/-- A document that is not left out is read as it is read without the option. -/
theorem Reads.optional {read : Source → Read α} {a : α} (h : Reads read d a)
    (hd : ∀ x, d = .scalar x → restored? x ≠ some .null) :
    Reads (Source.optional read) d (some a) := by
  intro s hs
  have hread := h s hs
  unfold Source.optional
  split
  next =>
    cases hs with
    | scalar htag hvalue hspell =>
        obtain ⟨y, hy, ⟨⟩⟩ := Option.map_eq_some_iff.1 hvalue.symm
        exact absurd hy (hd _ rfl)
  next => simp only [hread, ok_bind, pure_eq_ok]

theorem Reads.optional_named {read : Source → Read α} {fs : List (String × Doc)} {a : α}
    (h : Reads read (.named fs) a) : Reads (Source.optional read) (.named fs) (some a) :=
  h.optional (by rintro x ⟨⟩)

/-! ## Lists -/

section
variable {read : Nat → Source → Read α} {write : α → Doc} {room : Nat} {l : List α}

theorem items_eq_ok (h : ∀ a ∈ l, Reads (read room) (write a) a) {items : Items}
    (hitems : RendersItems restored? items (l.map write)) :
    Source.items read room items = .ok l := by
  induction l generalizing items with
  | nil =>
      cases hitems
      rfl
  | cons a rest ih =>
      obtain ⟨ha, hrest⟩ := List.forall_mem_cons.1 h
      cases hitems with
      | item hitem hitems =>
          rw [Source.items, ha _ hitem, ih hrest hitems]
          rfl

theorem reads_listOf (h : ∀ a ∈ l, Reads (read room) (write a) a) :
    Reads (Source.listOf read (room + 1)) (.list (l.map write)) l := by
  intro s hs
  cases hs with
  | list htag hitems => exact items_eq_ok h hitems

theorem exists_items_eq_error (hfaults : ∀ a ∈ l, Faults P (read room) (write a))
    (h : ∃ a ∈ l, Refuses P (read room) (write a)) {items : Items}
    (hitems : RendersItems restored? items (l.map write)) :
    ∃ f, Source.items read room items = .error f ∧ P f.cause := by
  induction l generalizing items with
  | nil =>
      obtain ⟨a, ha, -⟩ := h
      cases ha
  | cons a rest ih =>
      obtain ⟨hfirst, hothers⟩ := List.forall_mem_cons.1 hfaults
      cases hitems with
      | @item s left items _ _ hitem hitems =>
          rw [Source.items]
          -- The first item that is refused ends the reading, be it the one that is known.
          cases hread : read room s with
          | error f =>
              exact ⟨f.settle left, rfl, (cause_settle left f).symm ▸ hfirst s hitem f hread⟩
          | ok b =>
              have hrest : ∃ a ∈ rest, Refuses P (read room) (write a) := by
                obtain ⟨c, hc, hrefuses⟩ := h
                rcases List.mem_cons.1 hc with rfl | hc
                · obtain ⟨f, hf, -⟩ := hrefuses s hitem
                  rw [hread] at hf
                  cases hf
                · exact ⟨c, hc, hrefuses⟩
              obtain ⟨f, hf, hcause⟩ := ih hothers hrest hitems
              exact ⟨f, by rw [Read.settle, ok_bind, hf, error_bind], hcause⟩

theorem refuses_listOf (hfaults : ∀ a ∈ l, Faults P (read room) (write a))
    (h : ∃ a ∈ l, Refuses P (read room) (write a)) :
    Refuses P (Source.listOf read (room + 1)) (.list (l.map write)) := by
  intro s hs
  cases hs with
  | list htag hitems => exact exists_items_eq_error hfaults h hitems

end

end Json

/-! ## Records -/

namespace Form

open Json (restored? Reads Refuses)

variable {σ : Type}

/-- Written fields fill in a value: they stand in the order of the fields of a form, and only
optional ones are left out. -/
inductive Fills (room : Nat) : List (Field σ) → List (String × Doc) → σ → σ → Prop
  | nil {a : σ} : Fills room [] [] a a
  | present {field : Field σ} {fields : List (Field σ)} {d : Doc} {fs : List (String × Doc)}
      {set : σ → σ} {a b : σ} (hread : Reads (field.read room) d set)
      (hrest : Fills room fields fs (set a) b) :
      Fills room (field :: fields) ((field.name, d) :: fs) a b
  | absent {field : Field σ} {fields : List (Field σ)} {fs : List (String × Doc)} {a b : σ}
      (hoptional : field.isRequired = false) (hrest : Fills room fields fs a b) :
      Fills room (field :: fields) fs a b

theorem find?_name_eq_some {fields : List (Field σ)} (hnames : (fields.map (·.name)).Nodup)
    {field : Field σ} (hfield : field ∈ fields) :
    fields.find? (·.name = field.name) = some field := by
  induction fields with
  | nil => cases hfield
  | cons first rest ih =>
      rw [List.map_cons, List.nodup_cons] at hnames
      rw [List.find?_cons]
      rcases List.mem_cons.1 hfield with rfl | hfield
      · simp
      · have hne : first.name ≠ field.name := by
          intro heq
          exact hnames.1 (heq ▸ List.mem_map_of_mem hfield)
        simp only [hne, decide_false]
        exact ih hnames.2 hfield

section
variable {form : Form σ}

/-- While a record is read, these fields may still come: they are found by their names, none of
which was seen, and required fields were seen or are among them. -/
structure Awaits (form : Form σ) (fields : List (Field σ)) (seen : List String) : Prop where
  found : ∀ field ∈ fields, form.fields.find? (·.name = field.name) = some field
  names : (fields.map (·.name)).Nodup
  fresh : ∀ field ∈ fields, field.name ∉ seen
  required : ∀ field ∈ form.fields, field.isRequired = true →
    field.name ∈ seen ∨ field ∈ fields

namespace Awaits

variable {field : Field σ} {fields : List (Field σ)} {seen : List String}

theorem start (hnames : (form.fields.map (·.name)).Nodup) : Awaits form form.fields [] where
  found _ hfield := find?_name_eq_some hnames hfield
  names := hnames
  fresh _ _ := List.not_mem_nil
  required _ hfield _ := .inr hfield

theorem take (h : Awaits form (field :: fields) seen) :
    Awaits form fields (field.name :: seen) := by
  have hnames := List.nodup_cons.1 h.names
  refine ⟨(List.forall_mem_cons.1 h.found).2, hnames.2, fun other hother hmem => ?_,
    fun other hother hrequired => ?_⟩
  · rcases List.mem_cons.1 hmem with heq | hmem
    · exact hnames.1 (List.mem_map.2 ⟨other, hother, heq⟩)
    · exact h.fresh other (List.mem_cons_of_mem _ hother) hmem
  · rcases h.required other hother hrequired with hmem | hmem
    · exact .inl (List.mem_cons_of_mem _ hmem)
    · rcases List.mem_cons.1 hmem with rfl | hmem
      · exact .inl List.mem_cons_self
      · exact .inr hmem

theorem pass (h : Awaits form (field :: fields) seen) (hoptional : field.isRequired = false) :
    Awaits form fields seen := by
  refine ⟨(List.forall_mem_cons.1 h.found).2, (List.nodup_cons.1 h.names).2,
    (List.forall_mem_cons.1 h.fresh).2, fun other hother hrequired => ?_⟩
  rcases h.required other hother hrequired with hmem | hmem
  · exact .inl hmem
  · rcases List.mem_cons.1 hmem with rfl | hmem
    · rw [hoptional] at hrequired
      cases hrequired
    · exact .inr hmem

theorem missing_eq_none (h : Awaits form [] seen) : form.missing seen = none := by
  rw [missing, List.find?_eq_none, List.forall_mem_map]
  intro field hfield
  obtain ⟨hmem, hrequired⟩ := List.mem_filter.1 hfield
  simpa using h.required field hmem hrequired

end Awaits

variable {room : Nat} {fs : List (String × Doc)}

theorem readFields_eq_ok {fields : List (Field σ)} {a b : σ} (h : Fills room fields fs a b)
    {seen : List String} (hawaits : Awaits form fields seen) {source : Fields}
    (hsource : RendersFields restored? source (Doc.keyed fs)) :
    form.readFields room seen a source = .ok b := by
  induction h generalizing seen source with
  | nil =>
      cases hsource
      simp only [readFields, hawaits.missing_eq_none, pure_eq_ok]
  | @present field fields d fs set a b hread _ ih =>
      have hfound := hawaits.found field List.mem_cons_self
      have hnew := hawaits.fresh field List.mem_cons_self
      rw [Doc.keyed, List.map_cons] at hsource
      cases hsource with
      | field hkey hvalue hfields =>
          have hrest := ih hawaits.take hfields
          simp only [readFields, Source.asText?_eq_some hkey, hfound, hnew, if_false,
            hread _ hvalue, Read.settle, ok_bind, hrest]
  | absent hoptional _ ih => exact ih (hawaits.pass hoptional) hsource

/-- A record is read to the value that its fields fill in. -/
theorem reads_of_fills (hnames : (form.fields.map (·.name)).Nodup) {a b : σ}
    (h : Fills room form.fields fs a b) : Reads (form.read a (room + 1)) (.named fs) b := by
  intro s hs
  cases hs with
  | record htag hfields => exact readFields_eq_ok h (.start hnames) hfields

/-- A record is refused for what its first field is refused for. -/
theorem refuses_of_first {P : Cause → Prop} {field : Field σ} {name : String} {d : Doc} {a : σ}
    (hfind : form.fields.find? (·.name = name) = some field)
    (h : Refuses P (field.read room) d) :
    Refuses P (form.read a (room + 1)) (.named ((name, d) :: fs)) := by
  intro s hs
  cases hs with
  | record htag hsource =>
      cases hsource with
      | @field _ value _ left _ _ _ _ hkey hvalue hrest =>
          obtain ⟨f, hf, hcause⟩ := h value hvalue
          refine ⟨f.settle left, ?_, (Json.cause_settle left f).symm ▸ hcause⟩
          simp only [read, readFields, Source.asText?_eq_some hkey, hfind, List.not_mem_nil,
            if_false, hf, Read.settle, error_bind]

end

end Form

end FlowArtifact
