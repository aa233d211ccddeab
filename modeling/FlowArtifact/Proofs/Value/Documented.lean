import FlowArtifact.Proofs.Json.Keys
import FlowArtifact.Proofs.Json.Parsing
import FlowArtifact.Proofs.Value.Document
import FlowArtifact.Serialization

/-!
# Documented shapes of values

`Documented` says which documents are values, and of what kind, without the
reader.  On JSON texts the reader keeps to it except in two ways: a record may
give its type by a number, and a list with an item that is no value may still be
read, with its first item for the type.
-/

namespace FlowArtifact

namespace Doc

def under (name : String) (fields : List (Head × Doc)) : List Doc :=
  (fields.filter (·.1 = .scalar (.text name))).map (·.2)

theorem under_cons (name : String) (key : Head) (d : Doc) (rest : List (Head × Doc)) :
    under name ((key, d) :: rest) =
      if key = .scalar (.text name) then d :: under name rest else under name rest := by
  by_cases h : key = .scalar (.text name) <;> simp [under, h]

mutual
def parts : Doc → List Doc
  | .scalar s => [.scalar s]
  | .minusZero => [.minusZero]
  | .list items => .list items :: itemParts items
  | .record fields => .record fields :: fieldParts fields

def itemParts : List Doc → List Doc
  | [] => []
  | d :: rest => d.parts ++ itemParts rest

def fieldParts : List (Head × Doc) → List Doc
  | [] => []
  | (_, d) :: rest => d.parts ++ fieldParts rest
end

section
variable {P : Scalar → Prop}

mutual
theorem over_of_mem_parts : {d : Doc} → d.Over P → ∀ e ∈ d.parts, e.Over P
  | .scalar s, h => by simpa [parts] using h
  | .minusZero, h => h.elim
  | .list items, h => by
    rw [parts, List.forall_mem_cons]
    exact ⟨h, over_of_mem_itemParts h⟩
  | .record fields, h => by
    rw [parts, List.forall_mem_cons]
    exact ⟨h, over_of_mem_fieldParts h⟩

theorem over_of_mem_itemParts :
    {items : List Doc} → OverItems P items → ∀ e ∈ itemParts items, e.Over P
  | [], _ => by simp [itemParts]
  | d :: rest, h => by
    rw [itemParts, List.forall_mem_append]
    exact ⟨over_of_mem_parts h.1, over_of_mem_itemParts h.2⟩

theorem over_of_mem_fieldParts :
    {fields : List (Head × Doc)} → OverFields P fields → ∀ e ∈ fieldParts fields, e.Over P
  | [], _ => by simp [fieldParts]
  | (_, d) :: rest, h => by
    rw [fieldParts, List.forall_mem_append]
    exact ⟨over_of_mem_parts h.2.1, over_of_mem_fieldParts h.2.2⟩
end

end

end Doc

namespace Value

open Doc (under)

inductive TypeIdOf : List Doc → Option String → Prop
  | absent : TypeIdOf [] none
  | null : TypeIdOf [.scalar .null] none
  | given (t : String) : TypeIdOf [.text t] (some t)

inductive ParametersOf : List Doc → List (String × Value) → Prop
  | absent : ParametersOf [] []
  | given {fields : List (Head × Doc)} {parameters : List (String × Value)}
      (h : List.Forall₂ (fun f p => f.1 = .scalar (.text p.1) ∧ ofDoc? f.2 = some p.2)
        fields parameters) : ParametersOf [.record fields] parameters

/-- The documents that are values, and the values that they are. -/
inductive Documented : Doc → Value → Prop
  | text (t : String) : Documented (.text t) (simple t)
  | list {items : List Doc} {values : List Value}
      (h : List.Forall₂ (fun d v => ofDoc? d = some v) items values) :
      Documented (.list items) (list values)
  | cdata {fields : List (Head × Doc)} {t : String} (htype : under "type" fields = [.text "cdata"])
      (hvalue : under "value" fields = [.text t]) :
      Documented (.record fields) (.leaf (.verbatim t))
  | object {fields : List (Head × Doc)} {typeId : Option String}
      {parameters : List (String × Value)} (htype : under "type" fields = [.text "object"])
      (hid : TypeIdOf (under "typeId" fields) typeId)
      (hparameters : ParametersOf (under "parameters" fields) parameters) :
      Documented (.record fields) (object typeId parameters)

/-- The document is a record that gives its type by a number, or a list with an item that is no
value. -/
inductive Irregular : Doc → Prop
  | numbered {fields : List (Head × Doc)} {n : Integer64}
      (h : under "type" fields = [.scalar (.int n)]) : Irregular (.record fields)
  | mixed {items : List Doc} {d : Doc} (hd : d ∈ items) (h : ofDoc? d = none) :
      Irregular (.list items)

/-! ## Lists and parameters -/

theorem ofItems?_eq_some_iff {items : List Doc} {values : List Value} :
    ofItems? items = some values ↔ List.Forall₂ (fun d v => ofDoc? d = some v) items values := by
  induction items generalizing values with
  | nil => simp [ofItems?, eq_comm]
  | cons d rest ih =>
      simp only [ofItems?, Option.bind_eq_bind, Option.bind_eq_some_iff, Option.pure_def,
        Option.some.injEq, ih, List.forall₂_cons_left_iff]
      constructor
      · rintro ⟨v, hv, vs, hvs, rfl⟩
        exact ⟨v, vs, hv, hvs, rfl⟩
      · rintro ⟨v, vs, hv, hvs, rfl⟩
        exact ⟨v, hv, vs, hvs, rfl⟩

theorem ofItems?_eq_none_iff {items : List Doc} :
    ofItems? items = none ↔ ∃ d ∈ items, ofDoc? d = none := by
  induction items with
  | nil => simp [ofItems?]
  | cons d rest ih =>
      rw [List.exists_mem_cons_iff, ← ih, ofItems?]
      cases ofDoc? d with
      | none => simp
      | some v => cases ofItems? rest <;> simp

theorem entries?_eq_some_iff {fields : List (Head × Doc)} {found m : NameMap Value} :
    entries? found fields = some m ↔ ∃ parameters : List (String × Value),
      List.Forall₂ (fun f p => f.1 = .scalar (.text p.1) ∧ ofDoc? f.2 = some p.2)
        fields parameters ∧ parameters.foldl (fun m p => m.insert p.1 p.2) found = m := by
  induction fields generalizing found with
  | nil => simp [entries?]
  | cons f rest ih =>
      obtain ⟨key, d⟩ := f
      simp only [entries?, Option.bind_eq_bind, Option.bind_eq_some_iff, ih,
        List.forall₂_cons_left_iff, Head.name?_eq_some_iff]
      constructor
      · rintro ⟨v, hv, name, rfl, parameters, hrest, rfl⟩
        exact ⟨_, ⟨(name, v), parameters, ⟨rfl, hv⟩, hrest, rfl⟩, rfl⟩
      · rintro ⟨_, ⟨⟨name, v⟩, parameters, ⟨rfl, hv⟩, hrest, rfl⟩, rfl⟩
        exact ⟨v, hv, name, rfl, parameters, hrest, rfl⟩

/-! ## Records -/

section
variable {α : Type} (read : Doc → Option α)

def once : Option α → List Doc → Option (Option α)
  | found, [] => some found
  | none, d :: rest => (read d).bind fun a => once (some a) rest
  | some _, _ :: _ => none

theorem once_none_eq_some_iff {ds : List Doc} {found : Option α} :
    once read none ds = some found ↔
      ds = [] ∧ found = none ∨ ∃ d a, ds = [d] ∧ read d = some a ∧ found = some a := by
  rcases ds with - | ⟨d, - | ⟨d', rest⟩⟩
  · simp [once, eq_comm]
  · rw [once, Option.bind_eq_some_iff]
    simp [once, eq_comm]
  · rw [once, Option.bind_eq_some_iff]
    simp [once]

end

def text? : Doc → Option String
  | .scalar (.text t) => some t
  | _ => none

variable {fields : List (Head × Doc)} {P : Scalar → Prop}

theorem fieldName?_text (known : List String) (name : String) :
    fieldName? known (.scalar (.text name)) =
      some (if name = "type" then none else if name ∈ known then some name else none) := by
  unfold fieldName? typeKey Doc.fieldName
  by_cases h : name = "type" <;> simp [h]

theorem cdataField?_eq (hfields : Doc.OverFields P fields) (found : Option String) :
    cdataField? found fields = (once text? found (under "value" fields)).join := by
  induction fields generalizing found with
  | nil => simp [cdataField?, under, once]
  | cons f rest ih =>
      obtain ⟨key, d⟩ := f
      obtain ⟨⟨name, rfl⟩, -, hrest⟩ := hfields
      unfold cdataField?
      rw [fieldName?_text, Doc.under_cons]
      by_cases hvalue : name = "value"
      · subst hvalue
        cases found with
        | some t => simp [once]
        | none =>
            cases d with
            | scalar x => cases x <;> simp [once, text?, ih hrest]
            | _ => simp [once, text?]
      · by_cases htype : name = "type" <;> simp [hvalue, htype, ih hrest]

theorem objectFields?_eq (hfields : Doc.OverFields P fields) (typeId : Option (Option String))
    (parameters : Option (NameMap Value)) :
    objectFields? typeId parameters fields =
      (once typeId? typeId (under "typeId" fields)).bind fun typeId =>
        (once parameters? parameters (under "parameters" fields)).map fun parameters =>
          .record (typeId.getD none) (parameters.getD .empty) := by
  induction fields generalizing typeId parameters with
  | nil => simp [objectFields?, under, once]
  | cons f rest ih =>
      obtain ⟨key, d⟩ := f
      obtain ⟨⟨name, rfl⟩, -, hrest⟩ := hfields
      unfold objectFields?
      rw [fieldName?_text, Doc.under_cons, Doc.under_cons]
      by_cases hid : name = "typeId"
      · subst hid
        cases typeId with
        | some _ => simp [once]
        | none =>
            cases h : typeId? d <;> simp [once, h, ih hrest]
      · by_cases hparameters : name = "parameters"
        · subst hparameters
          cases parameters with
          | some _ => simp [once]
          | none =>
              cases h : parameters? d <;> simp [once, h, ih hrest]
        · by_cases htype : name = "type" <;> simp [hid, hparameters, htype, ih hrest]

theorem typeIdOf_iff {ds : List Doc} {typeId : Option String} :
    TypeIdOf ds typeId ↔ ∃ found, once typeId? none ds = some found ∧ found.getD none = typeId := by
  constructor
  · rintro (_ | _ | t)
    · exact ⟨none, rfl, rfl⟩
    · exact ⟨some none, rfl, rfl⟩
    · exact ⟨some (some t), rfl, rfl⟩
  · rintro ⟨found, hfound, rfl⟩
    rcases (once_none_eq_some_iff _).1 hfound with ⟨rfl, rfl⟩ | ⟨d, id, rfl, hd, rfl⟩
    · exact .absent
    · unfold typeId? at hd
      split at hd
      · cases hd
        exact .null
      · cases hd
        exact .given _
      · cases hd

theorem parametersOf_iff {ds : List Doc} {m : NameMap Value} :
    (∃ parameters, ParametersOf ds parameters ∧ NameMap.ofList parameters = m) ↔
      ∃ found, once parameters? none ds = some found ∧ found.getD .empty = m := by
  constructor
  · rintro ⟨parameters, _ | h, rfl⟩
    · exact ⟨none, rfl, rfl⟩
    · refine ⟨some (.ofList parameters), ?_, rfl⟩
      rw [once_none_eq_some_iff]
      exact .inr ⟨_, _, rfl, entries?_eq_some_iff.2 ⟨parameters, h, rfl⟩, rfl⟩
  · rintro ⟨found, hfound, rfl⟩
    rcases (once_none_eq_some_iff _).1 hfound with ⟨rfl, rfl⟩ | ⟨d, m, rfl, hd, rfl⟩
    · exact ⟨[], .absent, rfl⟩
    · cases d with
      | record fields =>
          obtain ⟨parameters, h, rfl⟩ := entries?_eq_some_iff.1 hd
          exact ⟨parameters, .given h, rfl⟩
      | _ => cases hd

theorem objectFields?_eq_some_iff (hfields : Doc.OverFields P fields) {v : Value} :
    objectFields? none none fields = some v ↔ ∃ typeId parameters,
      TypeIdOf (under "typeId" fields) typeId ∧
        ParametersOf (under "parameters" fields) parameters ∧ object typeId parameters = v := by
  rw [objectFields?_eq hfields]
  simp only [Option.bind_eq_some_iff, Option.map_eq_some_iff, typeIdOf_iff]
  constructor
  · rintro ⟨id, hid, found, hfound, rfl⟩
    obtain ⟨parameters, hparameters, hm⟩ := parametersOf_iff.2 ⟨found, hfound, rfl⟩
    exact ⟨_, parameters, ⟨id, hid, rfl⟩, hparameters, by rw [object, hm]⟩
  · rintro ⟨_, parameters, ⟨id, hid, rfl⟩, hparameters, rfl⟩
    obtain ⟨found, hfound, hm⟩ := parametersOf_iff.1 ⟨parameters, hparameters, rfl⟩
    exact ⟨id, hid, found, hfound, by rw [object, hm]⟩

theorem cdataField?_eq_some_iff (hfields : Doc.OverFields P fields) {t : String} :
    cdataField? none fields = some t ↔ under "value" fields = [.text t] := by
  rw [cdataField?_eq hfields, Option.join_eq_some_iff, once_none_eq_some_iff]
  constructor
  · rintro (⟨-, h⟩ | ⟨d, _, hvalue, hd, h⟩)
    · cases h
    · cases h
      unfold text? at hd
      split at hd
      · cases hd
        exact hvalue
      · cases hd
  · exact fun h => .inr ⟨_, t, h, rfl, rfl⟩

/-! ## The type of a record -/

theorem typeField?_eq_some_iff {type : ValueType} :
    typeField? fields = some type ↔ ∃ d, under "type" fields = [d] ∧ typeOf? d = some type := by
  constructor
  · intro h
    rw [typeField?] at h
    split at h
    next key d hfilter => exact ⟨d, by rw [under, ← typeKey, hfilter]; rfl, h⟩
    next => cases h
  · rintro ⟨d, hd, h⟩
    obtain ⟨⟨key, d'⟩, hfilter, rfl⟩ := List.map_eq_singleton_iff.1 hd
    rw [typeField?, typeKey, hfilter]
    exact h

def typeName : ValueType → String
  | .cdata => "cdata"
  | .object => "object"

theorem typeOf?_eq_some {d : Doc} {type : ValueType} (h : typeOf? d = some type) :
    d = .text (typeName type) ∨ ∃ n, d = .scalar (.int n) := by
  unfold typeOf? at h
  split at h
  · cases h
    exact .inl rfl
  · cases h
    exact .inl rfl
  · exact .inr ⟨_, rfl⟩
  · cases h

theorem typeField?_of_under (type : ValueType) (h : under "type" fields = [.text (typeName type)]) :
    typeField? fields = some type :=
  typeField?_eq_some_iff.2 ⟨_, h, by cases type <;> rfl⟩

/-! ## Documents -/

theorem documented_list_iff {items : List Doc} {v : Value} :
    Documented (.list items) v ↔ ofDoc? (.list items) = some v ∧ ¬Irregular (.list items) := by
  constructor
  · intro h
    cases h with
    | list h =>
        have hitems := ofItems?_eq_some_iff.2 h
        refine ⟨by rw [ofDoc?, hitems], fun hirregular => ?_⟩
        cases hirregular with
        | mixed hmem hnone =>
            rw [ofItems?_eq_none_iff.2 ⟨_, hmem, hnone⟩] at hitems
            cases hitems
  · rintro ⟨h, hregular⟩
    cases hitems : ofItems? items with
    | none =>
        obtain ⟨d, hmem, hnone⟩ := ofItems?_eq_none_iff.1 hitems
        exact (hregular (.mixed hmem hnone)).elim
    | some values =>
        rw [ofDoc?, hitems] at h
        cases h
        exact .list (ofItems?_eq_some_iff.1 hitems)

theorem not_irregular_of_under (type : ValueType)
    (h : under "type" fields = [.text (typeName type)]) : ¬Irregular (.record fields) := by
  intro hirregular
  cases hirregular with
  | numbered hnumber =>
      rw [h] at hnumber
      cases hnumber

theorem documented_record_iff (hfields : Doc.OverFields P fields) {v : Value} :
    Documented (.record fields) v ↔
      ofDoc? (.record fields) = some v ∧ ¬Irregular (.record fields) := by
  constructor
  · intro h
    cases h with
    | cdata htype hvalue =>
        refine ⟨?_, not_irregular_of_under .cdata htype⟩
        rw [ofDoc?, typeField?_of_under .cdata htype]
        simp [(cdataField?_eq_some_iff hfields).2 hvalue]
    | object htype hid hparameters =>
        refine ⟨?_, not_irregular_of_under .object htype⟩
        rw [ofDoc?, typeField?_of_under .object htype]
        exact (objectFields?_eq_some_iff hfields).2 ⟨_, _, hid, hparameters, rfl⟩
  · rintro ⟨h, hregular⟩
    cases htype : typeField? fields with
    | none =>
        rw [ofDoc?, htype] at h
        cases h
    | some type =>
        -- A type is given by its name, or by its number, which no documented shape knows.
        obtain ⟨d, hunder, hd⟩ := typeField?_eq_some_iff.1 htype
        obtain rfl | ⟨n, rfl⟩ := typeOf?_eq_some hd
        · rw [ofDoc?, htype] at h
          cases type with
          | cdata =>
              obtain ⟨t, ht, rfl⟩ := Option.map_eq_some_iff.1 h
              exact .cdata hunder ((cdataField?_eq_some_iff hfields).1 ht)
          | object =>
              obtain ⟨_, _, hid, hparameters, rfl⟩ := (objectFields?_eq_some_iff hfields).1 h
              exact .object hunder hid hparameters
        · exact (hregular (.numbered hunder)).elim

/-- On a document with texts for keys, the reader and the documented shapes differ in the irregular
documents only. -/
theorem documented_iff {d : Doc} (hd : d.Over P) {v : Value} :
    Documented d v ↔ ofDoc? d = some v ∧ ¬Irregular d := by
  cases d with
  | scalar x =>
      constructor
      · rintro ⟨t⟩
        exact ⟨rfl, nofun⟩
      · rintro ⟨h, -⟩
        cases x <;> cases h
        exact .text _
  | minusZero => exact hd.elim
  | list items => exact documented_list_iff
  | record fields => exact documented_record_iff hd

end Value

/-! ## JSON texts -/

theorem Fit.toRead_eq_ok_iff {α : Type} {x : Fit α} {a : α} : x.toRead = .ok a ↔ x = .ok a := by
  cases x <;> simp [toRead]

namespace Format

theorem readDoc_json_eq_ok_iff {α : Type} {fit : Doc → Fit α} {text : String} {a : α} :
    json.readDoc fit text = .ok a ↔ ∃ d,
      (Json.read text).root.content Json.maxNesting = .ok d ∧ fit d = .ok a ∧
        (Json.read text).tail = none := by
  simp only [readDoc, reading, maxNesting, Reading.take, bind_eq_ok_iff, Fit.toRead_eq_ok_iff]
  cases (Json.read text).tail with
  | none =>
      constructor
      · rintro ⟨_, ⟨d, hd, hfit⟩, ⟨⟩⟩
        exact ⟨d, hd, hfit, rfl⟩
      · rintro ⟨d, hd, hfit, -⟩
        exact ⟨a, ⟨d, hd, hfit⟩, rfl⟩
  | some f => simp

theorem over_of_readDoc {text : String} {d : Doc} (h : json.readDoc .ok text = .ok d) :
    d.Over fun _ => True := by
  obtain ⟨_, hd, ⟨⟩, -⟩ := readDoc_json_eq_ok_iff.1 h
  exact Json.over_of_content_read hd

/-- A document that is not too deep is read back from its text, its scalars as they are restored. -/
theorem readDoc_json_write {d : Doc} {g : Scalar → Scalar}
    (hd : d.Over fun x => Json.restored? x = some (g x)) (hnesting : d.nesting ≤ Json.maxNesting)
    (indented : Bool) : json.readDoc .ok (json.write indented d) = .ok (d.mapScalars g) := by
  obtain ⟨s, hs, hread⟩ := Json.read_written hd indented
  rw [readDoc_json_eq_ok_iff, write, hread]
  exact ⟨_, Source.content_eq_ok Json.maxNesting hs hd hnesting, rfl, rfl⟩

end Format

namespace Value

theorem ofDoc_eq_ok_iff {d : Doc} {v : Value} : ofDoc d = .ok v ↔ ofDoc? d = some v := by
  unfold ofDoc
  cases ofDoc? d <;> simp

/-- What is read of a JSON text is what its document is.  Everywhere in that document, what is
read of a part is what the documented shapes say, and all that they say, unless the part is
irregular. -/
theorem read_json_iff_documented (text : String) :
    (∀ v, read .json text = .ok v ↔
      ∃ d, Format.json.readDoc .ok text = .ok d ∧ ofDoc? d = some v) ∧
    ∀ d, Format.json.readDoc .ok text = .ok d → ∀ e ∈ d.parts, ∀ v,
      Documented e v ↔ ofDoc? e = some v ∧ ¬Irregular e := by
  refine ⟨fun v => ?_, fun d hd e he v => ?_⟩
  · simp only [read, Format.readDoc_json_eq_ok_iff, ofDoc_eq_ok_iff]
    constructor
    · rintro ⟨d, hd, hv, htail⟩
      exact ⟨d, ⟨d, hd, rfl, htail⟩, hv⟩
    · rintro ⟨d, ⟨_, hd, ⟨⟩, htail⟩, hv⟩
      exact ⟨d, hd, hv, htail⟩
  · exact documented_iff (Doc.over_of_mem_parts (Format.over_of_readDoc hd) e he)

/-- A list is read as an object. -/
theorem read_json_of_typed_list :
    ¬∀ (text : String) (d : Doc) (v : Value), Format.json.readDoc .ok text = .ok d →
      read .json text = .ok v → Documented d v := by
  intro h
  let d : Doc := .list [.text "object", .scalar .null, .record []]
  have htext : Format.json.write false d = "[\"object\",null,\x7b\x7d]" := by decide +kernel
  have hdoc : Format.json.readDoc .ok "[\"object\",null,\x7b\x7d]" = .ok d := by
    have hover : d.Over fun x => Json.restored? x = some (id x) := ⟨rfl, rfl, trivial, trivial⟩
    rw [← htext]
    exact Format.readDoc_json_write hover (by decide) false
  have hvalue : ofDoc? d = some (.record none .empty) := rfl
  have hread : read .json "[\"object\",null,\x7b\x7d]" = .ok (.record none .empty) := by
    obtain ⟨_, hcontent, ⟨⟩, htail⟩ := Format.readDoc_json_eq_ok_iff.1 hdoc
    exact Format.readDoc_json_eq_ok_iff.2 ⟨d, hcontent, ofDoc_eq_ok_iff.2 hvalue, htail⟩
  have hregular := ((documented_iff (Format.over_of_readDoc hdoc)).1 (h _ _ _ hdoc hread)).2
  exact hregular (.mixed (d := .scalar .null) (by simp) rfl)

end Value

end FlowArtifact
