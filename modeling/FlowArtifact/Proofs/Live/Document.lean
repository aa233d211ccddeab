import FlowArtifact.Live.Document
import FlowArtifact.Proofs.Json.Form
import FlowArtifact.Proofs.Live.Annotations
import FlowArtifact.Proofs.Serialization
import FlowArtifact.Proofs.Source.Nesting

/-!
# Live components and their texts

Each record of a live component is written with its fields in the order of its form,
and each is read back where there is room for it.  Only the values of annotations may
be of any depth: they stand four levels deep, so what is left for them decides
whether a component is read back or refused.
-/

namespace FlowArtifact

open Form (Fills)
open Json (Reads Refuses Faults restored?)

/-! ## Whole texts -/

namespace Json

variable {α : Type} {read : Nat → Source → Read α} {d : Doc} {indented : Bool}

/-- What is read of the text of a document is what is read of a source of it. -/
theorem exists_parse_write_eq (hd : d.Over fun _ => True) :
    ∃ s, s.Renders restored? d ∧
      parse read (Format.json.write indented d) = read maxNesting s := by
  obtain ⟨s, hs, htext⟩ := read_written hd indented
  refine ⟨s, hs, ?_⟩
  rw [parse, Format.write, htext, Reading.take]
  cases read maxNesting s <;> rfl

theorem parse_write_of_reads (hd : d.Over fun _ => True) {a : α}
    (h : Reads (read maxNesting) d a) : parse read (Format.json.write indented d) = .ok a := by
  obtain ⟨s, hs, hparse⟩ := exists_parse_write_eq hd
  rw [hparse, h s hs]

theorem parse_write_of_refuses (hd : d.Over fun _ => True) {P : Cause → Prop}
    (h : Refuses P (read maxNesting) d) :
    ∃ f, parse read (Format.json.write indented d) = .error f ∧ P f.cause := by
  obtain ⟨s, hs, hparse⟩ := exists_parse_write_eq hd
  rw [hparse]
  exact h s hs

end Json

/-! ## Optional fields -/

section
variable {α σ : Type} {room : Nat} {write : α → Doc} {o : Option α}

/-- An optional field fills in what is known, or leaves what was there. -/
theorem Form.Fills.optional {field : Form.Field σ} {fields : List (Form.Field σ)}
    {fs : List (String × Doc)} {a b : σ} (set : Option α → σ → σ)
    (hoptional : field.isRequired = false)
    (hread : ∀ x, Reads (field.read room) (write x) (set (some x))) (hnone : set none a = a)
    (hrest : Fills room fields fs (set o a) b) :
    Fills room (field :: fields) (optionalField field.name write o ++ fs) a b := by
  cases o with
  | none =>
      rw [hnone] at hrest
      exact .absent hoptional hrest
  | some x => exact .present (hread x) hrest

theorem Form.Fills.optional_last {field : Form.Field σ} {a b : σ} (set : Option α → σ → σ)
    (hoptional : field.isRequired = false)
    (hread : ∀ x, Reads (field.read room) (write x) (set (some x))) (hnone : set none a = a)
    (hset : set o a = b) : Fills room [field] (optionalField field.name write o) a b := by
  have hrest : Fills room [] [] (set o a) b := hset ▸ .nil
  have hfills := Fills.optional set hoptional hread hnone hrest
  rwa [List.append_nil] at hfills

end

/-! ## Identifiers and locations -/

namespace Identifier

theorem reads_form (i : Identifier) (room : Nat) :
    Reads (form.read default (room + 1)) i.toDoc i :=
  Form.reads_of_fills (by decide)
    (.present ((Json.reads_text i.namespace).map _)
      (.present ((Json.reads_text i.name).map _) .nil))

end Identifier

namespace ComponentType

theorem ofName_name (t : ComponentType) : ofName t.name = .ok t := by
  cases t <;> rfl

theorem reads_ofSource (t : ComponentType) (room : Nat) : Reads (ofSource room) t.toDoc t := by
  intro s hs
  have htext : s.IsText t.name := Json.isText_of_renders hs
  have hname : s.asText? = some t.name := Source.asText?_eq_some htext
  cases s with
  | scalar spot value spelling blank =>
      obtain ⟨-, rfl, -⟩ := htext
      simp only [ofSource, isName, if_true, readName, hname, ofName_name, Fit.toRead, Read.settle]
  | _ => exact htext.elim

end ComponentType

namespace TypedIdentifier

theorem reads_form (i : TypedIdentifier) (room : Nat) :
    Reads (form.read default (room + 2)) i.toDoc i :=
  Form.reads_of_fills (by decide)
    (.present ((i.identifier.reads_form room).map _)
      (.present ((ComponentType.reads_ofSource i.type (room + 1)).map _) .nil))

theorem over_toDoc (i : TypedIdentifier) : i.toDoc.Over fun _ => True := by
  simp [toDoc, Identifier.toDoc, ComponentType.toDoc]

end TypedIdentifier

namespace LocationPart

theorem reads_form (p : LocationPart) (room : Nat) :
    Reads (form.read default (room + 3)) p.toDoc p := by
  have hidentifier (i : TypedIdentifier) :
      Reads (Source.optional (TypedIdentifier.form.read default (room + 2))) i.toDoc (some i) :=
    (i.reads_form room).optional_named
  exact Form.reads_of_fills (by decide)
    (.present ((Json.reads_text p.path).map _)
      (.optional_last (fun o p => { p with identifier := o }) rfl (fun i => (hidentifier i).map _)
        rfl rfl))

theorem over_toDoc (p : LocationPart) : p.toDoc.Over fun _ => True := by
  rw [toDoc, Doc.over_named, List.forall_mem_cons]
  exact ⟨trivial, forall_mem_optionalField fun i _ => i.over_toDoc⟩

end LocationPart

namespace ComponentLocation

theorem reads_word (n : UInt32) : Reads Source.word (wordDoc n) n := by
  intro s hs
  cases hs with
  | @scalar spot value spelling blank _ htag hvalue hspell =>
      obtain rfl := toOption_eq_some_iff.1 hvalue
      have hlt := n.toNat_lt
      have hrange : (0 : Int) ≤ n.toNat ∧ (n.toNat : Int) < 4294967296 := by omega
      simp only [Source.word, Integer64.val_ofWord, if_pos hrange, Int.toNat_natCast,
        UInt32.ofNat_toNat, pure_eq_ok]

theorem fields_assoc (l : ComponentLocation) :
    l.toDoc = .named (("location", .text l.text) :: (optionalField "fileName" Doc.text l.fileName ++
      (optionalField "lineInFile" wordDoc l.line ++ (optionalField "startColumn" wordDoc l.column ++
        [("parts", .list (l.parts.map LocationPart.toDoc))])))) := by
  simp [toDoc]

theorem reads_form (l : ComponentLocation) (room : Nat) :
    Reads (form.read default (room + 5)) l.toDoc l := by
  have htext (t : String) : Reads (Source.optional Source.text) (.text t) (some t) :=
    (Json.reads_text t).optional (by rintro _ ⟨⟩ ⟨⟩)
  have hword (n : UInt32) : Reads (Source.optional Source.word) (wordDoc n) (some n) :=
    (reads_word n).optional (by rintro _ ⟨⟩ ⟨⟩)
  have hparts : Reads (Source.listOf (LocationPart.form.read default) (room + 4))
      (.list (l.parts.map LocationPart.toDoc)) l.parts :=
    Json.reads_listOf fun p _ => p.reads_form room
  rw [fields_assoc]
  exact Form.reads_of_fills (by decide)
    (.present ((Json.reads_text l.text).map _)
      (.optional (fun o l => { l with fileName := o }) rfl (fun t => (htext t).map _) rfl
        (.optional (fun o l => { l with line := o }) rfl (fun n => (hword n).map _) rfl
          (.optional (fun o l => { l with column := o }) rfl (fun n => (hword n).map _) rfl
            (.present (hparts.map _) .nil)))))

theorem over_toDoc (l : ComponentLocation) : l.toDoc.Over fun _ => True := by
  have hparts : (Doc.list (l.parts.map LocationPart.toDoc)).Over fun _ => True := by
    rw [Doc.over_list, List.forall_mem_map]
    exact fun p _ => p.over_toDoc
  rw [fields_assoc, Doc.over_named]
  simp only [List.forall_mem_cons, List.forall_mem_append]
  exact ⟨trivial, forall_mem_optionalField fun _ _ => trivial,
    forall_mem_optionalField fun _ _ => trivial, forall_mem_optionalField fun _ _ => trivial,
    hparts, nofun⟩

end ComponentLocation

/-! ## Annotations -/

namespace Datum

variable {v : Datum} {room : Nat}

theorem reads_content (hexact : v.isExact = true) (hlevels : v.levels ≤ room) :
    Reads (Source.content room) v.toDoc v.toDoc := by
  intro s hs
  have hself : v.toDoc.mapScalars id = v.toDoc :=
    Doc.mapScalars_eq_self (over_toDoc (fun _ _ => rfl) (.inl hexact))
  have hcontent := Source.content_eq_ok (g := id) room hs
    (over_toDoc (fun _ => Artifact.restored?_of_isExact) (.inl hexact)) (v.nesting_toDoc ▸ hlevels)
  rwa [hself] at hcontent

/-- Data of more levels than there is room for are refused, and for no other cause if they hold no
doubles. -/
theorem refuses_content {P : Cause → Prop} (hdeep : P .tooDeep)
    (hP : v.isExact = true ∨ ∀ c, P c) (hlevels : room < v.levels) :
    Refuses P (Source.content room) v.toDoc := by
  intro s hs
  rcases hP with hexact | hP
  · obtain ⟨p, hp⟩ := Source.content_eq_tooDeep (g := id) room hs
      (over_toDoc (fun _ => Artifact.restored?_of_isExact) (.inl hexact))
      (v.nesting_toDoc ▸ hlevels)
    exact ⟨_, hp, hdeep⟩
  · cases hcontent : s.content room with
    | error f => exact ⟨f, rfl, hP f.cause⟩
    | ok d =>
        have hnesting := Source.nesting_le_of_content s hcontent
        rw [Source.nesting_of_renders hs, nesting_toDoc] at hnesting
        omega

end Datum

theorem QualifiedName.reads_form (n : QualifiedName) (room : Nat) :
    Reads (form.read default (room + 1)) n.toDoc n :=
  Form.reads_of_fills (by decide)
    (.present ((Json.reads_text n.namespace).map _)
      (.present ((Json.reads_text n.local).map _) .nil))

namespace Annotations

def entryDoc (e : QualifiedName × Datum) : Doc := .list [e.1.toDoc, e.2.toDoc]

section
variable {e : QualifiedName × Datum} {room : Nat}

theorem reads_readEntry (hexact : e.2.isExact = true) (hlevels : e.2.levels ≤ room + 1) :
    Reads (readEntry (room + 2)) (entryDoc e) e := by
  intro s hs
  cases hs with
  | list htag hitems =>
    cases hitems with
    | item hname hitems =>
      cases hitems with
      | item hvalue hitems =>
        cases hitems
        have hdatum : Datum.ofDoc e.2.toDoc = .ok e.2 := by
          rw [Datum.ofDoc_toDoc, Datum.mapLeaf_eq_self (fun _ => Scalar.settled_of_isExact) hexact]
        simp only [readEntry, e.1.reads_form room _ hname, Read.settle, ok_bind,
          Datum.reads_content hexact hlevels _ hvalue, hdatum, Fit.toRead, Form.readEnd, pure_eq_ok]

theorem refuses_readEntry {P : Cause → Prop} (hdeep : P .tooDeep)
    (hP : e.2.isExact = true ∨ ∀ c, P c) (hlevels : room + 1 < e.2.levels) :
    Refuses P (readEntry (room + 2)) (entryDoc e) := by
  intro s hs
  cases hs with
  | list htag hitems =>
    cases hitems with
    | item hname hitems =>
      cases hitems with
      | @item value left _ _ _ hvalue hitems =>
        cases hitems
        obtain ⟨f, hf, hcause⟩ := Datum.refuses_content hdeep hP hlevels value hvalue
        refine ⟨f.settle left, ?_, (Json.cause_settle left f).symm ▸ hcause⟩
        simp only [readEntry, e.1.reads_form room _ hname, Read.settle, ok_bind, hf,
          error_bind]

theorem faults_readEntry {P : Cause → Prop} (hdeep : P .tooDeep)
    (hP : e.2.isExact = true ∨ ∀ c, P c) : Faults P (readEntry (room + 2)) (entryDoc e) := by
  rcases hP with hexact | hP
  · by_cases hlevels : e.2.levels ≤ room + 1
    · exact Json.faults_of_reads (reads_readEntry hexact hlevels)
    · have hdeeper : room + 1 < e.2.levels := Nat.lt_of_not_le hlevels
      exact Json.faults_of_refuses (refuses_readEntry hdeep (.inl hexact) hdeeper)
  · exact fun _ _ f _ => hP f.cause

end

variable {a : Annotations} {room : Nat}

theorem reads_form {b : Annotations}
    (h : ∀ e ∈ a.entries, e.2.isExact = true ∧ e.2.levels ≤ room + 1) :
    Reads (form.read b (room + 4)) a.toDoc a := by
  have hentries : Reads (Source.listOf readEntry (room + 3)) (.list (a.entries.map entryDoc))
      a.entries :=
    Json.reads_listOf fun e he => reads_readEntry (h e he).1 (h e he).2
  exact Form.reads_of_fills (by decide) (.present (hentries.map _) .nil)

theorem refuses_form {P : Cause → Prop} {b : Annotations} (hdeep : P .tooDeep)
    (hP : (∀ e ∈ a.entries, e.2.isExact = true) ∨ ∀ c, P c)
    (h : ∃ e ∈ a.entries, room + 1 < e.2.levels) :
    Refuses P (form.read b (room + 4)) a.toDoc := by
  have hentry : ∀ e ∈ a.entries, e.2.isExact = true ∨ ∀ c, P c :=
    fun e he => hP.imp_left fun hexact => hexact e he
  have hentries : Refuses P (Source.listOf readEntry (room + 3))
      (.list (a.entries.map entryDoc)) := by
    refine Json.refuses_listOf (fun e he => faults_readEntry hdeep (hentry e he)) ?_
    obtain ⟨e, he, hlevels⟩ := h
    exact ⟨e, he, refuses_readEntry hdeep (hentry e he) hlevels⟩
  exact Form.refuses_of_first rfl (hentries.bind _)

theorem over_toDoc (a : Annotations) : a.toDoc.Over fun _ => True := by
  rw [toDoc, Doc.over_named, List.forall_mem_singleton, Doc.over_list, List.forall_mem_map]
  intro e _
  have hvalue : e.2.toDoc.Over fun _ => True :=
    Datum.over_toDoc (fun _ _ => trivial) (.inr fun _ => trivial)
  simp [QualifiedName.toDoc, hvalue]

end Annotations

/-! ## Components -/

namespace LiveComponent

variable {c : LiveComponent} {room : Nat}

theorem reads_form
    (h : ∀ e ∈ c.annotations.entries, e.2.isExact = true ∧ e.2.levels ≤ room + 2) :
    Reads (form.read {} (room + 6)) c.toDoc c := by
  have hlocation (l : ComponentLocation) :
      Reads (Source.optional (ComponentLocation.form.read default (room + 5))) l.toDoc (some l) :=
    (l.reads_form room).optional_named
  exact Form.reads_of_fills (by decide)
    (.present ((Annotations.reads_form h).map _)
      (.optional_last (fun o c => { c with location := o }) rfl (fun l => (hlocation l).map _)
        rfl rfl))

theorem refuses_form {P : Cause → Prop} (hdeep : P .tooDeep)
    (hP : (∀ e ∈ c.annotations.entries, e.2.isExact = true) ∨ ∀ x, P x)
    (h : ∃ e ∈ c.annotations.entries, room + 2 < e.2.levels) :
    Refuses P (form.read {} (room + 6)) c.toDoc :=
  Form.refuses_of_first rfl ((Annotations.refuses_form hdeep hP h).bind _)

theorem over_toDoc (c : LiveComponent) : c.toDoc.Over fun _ => True := by
  rw [toDoc, Doc.over_named, List.forall_mem_cons]
  exact ⟨c.annotations.over_toDoc, forall_mem_optionalField fun l _ => l.over_toDoc⟩

/-- A component is read back from its text if its annotations hold no doubles and no more levels
than are left for them, and is refused if one holds more. -/
theorem parse_write_json (c : LiveComponent) (indented : Bool) :
    ((∀ e ∈ c.annotations.entries, e.2.isExact = true ∧ e.2.levels ≤ 123) →
      Json.parse (form.read {}) (Format.json.write indented c.toDoc) = .ok c) ∧
    ((∃ e ∈ c.annotations.entries, 124 ≤ e.2.levels) →
      ∃ f, Json.parse (form.read {}) (Format.json.write indented c.toDoc) = .error f ∧
        ((∀ e ∈ c.annotations.entries, e.2.isExact = true) → f.cause = .tooDeep)) := by
  -- A component, its annotations, their list and the entry take four levels of the limit.
  have hlimit : Json.maxNesting = 121 + 6 := rfl
  constructor
  · intro h
    have hform : Reads (form.read {} Json.maxNesting) c.toDoc c := hlimit ▸ reads_form h
    exact Json.parse_write_of_reads c.over_toDoc hform
  · intro h
    let P (x : Cause) : Prop := (∀ e ∈ c.annotations.entries, e.2.isExact = true) → x = .tooDeep
    have hP : (∀ e ∈ c.annotations.entries, e.2.isExact = true) ∨ ∀ x, P x := by
      by_cases hexact : ∀ e ∈ c.annotations.entries, e.2.isExact = true
      · exact .inl hexact
      · exact .inr fun x h => absurd h hexact
    have hform : Refuses P (form.read {} Json.maxNesting) c.toDoc :=
      hlimit ▸ refuses_form (fun _ => rfl) hP h
    exact Json.parse_write_of_refuses c.over_toDoc hform

def specimen (lists : Nat) : LiveComponent :=
  run {} [
    .annotate ⟨"http://doc", "nested"⟩ (Nat.repeat (fun v => .list [v]) lists (.leaf .null)),
    .locate {
      text := "main/processors/0"
      line := some 4294967295
      parts := [⟨"main", some ⟨⟨"mule", "flow"⟩, .flow⟩⟩, ⟨"processors", none⟩,
        ⟨"0", some ⟨⟨"mule", "on-error"⟩, .errorHandler⟩⟩] },
    .annotate ⟨"", "count"⟩
      (.record () (.ofList [("total", .leaf (.int default)), ("done", .leaf (.bool true))]))]

theorem parse_write_json_specimen :
    Json.parse (form.read {}) (Format.json.write false (specimen 123).toDoc) =
      .ok (specimen 123) ∧
    ∃ f, Json.parse (form.read {}) (Format.json.write false (specimen 124).toDoc) = .error f ∧
      f.cause = .tooDeep := by
  have hexact : ∀ e ∈ (specimen 124).annotations.entries, e.2.isExact = true := by decide +kernel
  obtain ⟨f, hf, hcause⟩ := (parse_write_json (specimen 124) false).2 (by decide +kernel)
  exact ⟨(parse_write_json (specimen 123) false).1 (by decide +kernel), f, hf, hcause hexact⟩

end LiveComponent

end FlowArtifact
