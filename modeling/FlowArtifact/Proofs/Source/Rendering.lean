import FlowArtifact.Proofs.Doc
import FlowArtifact.Proofs.Outcome
import FlowArtifact.Source

/-!
# Sources of written documents

A source renders a document when it has the same lists and records, its keys are
the same texts, and each scalar was read by a given `read`, which fails for a
number that is out of range.  The content of such a source is the document with
its scalars replaced, unless a scalar fails or the document is too deep.  If no
scalar fails, a document that is too deep is refused for its depth.
-/

namespace FlowArtifact

namespace Source

/-- The source is this text and spelled like it. -/
def IsText (t : String) : Source → Prop
  | .scalar spot value spelling _ =>
    spot.tagged = false ∧ value = .ok (.scalar (.text t)) ∧ (spelling = none ∨ spelling = some t)
  | _ => False

mutual
/-- The source is this document, its scalars read by `read`. -/
inductive Renders (read : Scalar → Option Scalar) : Source → Doc → Prop
  | scalar {spot : Spot} {value : Read Head} {spelling : Option String} {blank : Bool}
      {x : Scalar} (htag : spot.tagged = false) (hvalue : value.toOption = (read x).map .scalar)
      (hspell : ∀ t, x = .text t → spelling = none ∨ spelling = some t) :
      Renders read (.scalar spot value spelling blank) (.scalar x)
  | list {spot : Spot} {items : Items} {ds : List Doc} (htag : spot.tagged = false)
      (hitems : RendersItems read items ds) : Renders read (.list spot items) (.list ds)
  | record {spot : Spot} {fields : Fields} {fs : List (Head × Doc)} (htag : spot.tagged = false)
      (hfields : RendersFields read fields fs) : Renders read (.record spot fields) (.record fs)

inductive RendersItems (read : Scalar → Option Scalar) : Items → List Doc → Prop
  | closed {place : Place} : RendersItems read (.closed place) []
  | item {s : Source} {left : Place} {rest : Items} {d : Doc} {ds : List Doc}
      (hitem : Renders read s d) (hrest : RendersItems read rest ds) :
      RendersItems read (.item s left rest) (d :: ds)

inductive RendersFields (read : Scalar → Option Scalar) : Fields → List (Head × Doc) → Prop
  | closed {place : Place} : RendersFields read (.closed place) []
  | field {key value : Source} {keyed left : Place} {rest : Fields} {name : String} {d : Doc}
      {fs : List (Head × Doc)} (hkey : IsText name key) (hvalue : Renders read value d)
      (hrest : RendersFields read rest fs) :
      RendersFields read (.field key keyed value left rest) ((.scalar (.text name), d) :: fs)
end

theorem asText?_eq_some {s : Source} {t : String} (h : s.IsText t) : s.asText? = some t := by
  cases s with
  | scalar spot value spelling blank =>
      obtain ⟨-, rfl, rfl | rfl⟩ := h <;> rfl
  | _ => exact h.elim

theorem content_eq_text {s : Source} {t : String} (h : s.IsText t) (room : Nat) :
    s.content room = .ok (.text t) := by
  cases s with
  | scalar spot value spelling blank =>
      obtain ⟨htag, rfl, -⟩ := h
      simp [content, htag, Doc.text]
  | _ => exact h.elim

section
variable {read : Scalar → Option Scalar}

theorem isText_of_renders {s : Source} {t : String} (ht : read (.text t) = some (.text t))
    (h : s.Renders read (.text t)) : s.IsText t := by
  cases h with
  | @scalar spot value spelling blank _ htag hvalue hspell =>
      refine ⟨htag, ?_, hspell t rfl⟩
      cases value with
      | ok head => simpa [ht, Except.toOption] using hvalue
      | error f => simp [ht, Except.toOption] at hvalue

mutual
/-- What is taken of a source is the document with its scalars as they were read. -/
theorem eq_mapScalars_of_content {g : Scalar → Scalar}
    (hg : ∀ x x', read x = some x' → g x = x') {room : Nat} :
    {s : Source} → {d e : Doc} → s.Renders read d → s.content room = .ok e → e = d.mapScalars g
  | _, _, e, @Renders.scalar _ spot value _ _ x htag hvalue _, he => by
    cases value with
    | error f => simp [content, htag] at he
    | ok head =>
        obtain ⟨x', hread, rfl⟩ : ∃ x', read x = some x' ∧ .scalar x' = head := by
          simpa [Except.toOption, eq_comm] using hvalue
        obtain rfl : Doc.scalar x' = e := by simpa [content, htag] using he
        rw [Doc.mapScalars_scalar, hg x x' hread]
  | _, _, e, .list htag hitems, he => by
    cases room with
    | zero => simp [content, htag] at he
    | succ room =>
        simp only [content, htag, Bool.false_eq_true, if_false, bind_eq_ok_iff, pure_eq_ok] at he
        obtain ⟨es, hes, hlist⟩ := he
        cases hlist
        rw [Doc.mapScalars, eq_mapItems_of_contentItems hg hitems hes]
  | _, _, e, .record htag hfields, he => by
    cases room with
    | zero => simp [content, htag] at he
    | succ room =>
        simp only [content, htag, Bool.false_eq_true, if_false, bind_eq_ok_iff, pure_eq_ok] at he
        obtain ⟨es, hes, hrecord⟩ := he
        cases hrecord
        rw [Doc.mapScalars, eq_mapFields_of_contentFields hg hfields hes]

theorem eq_mapItems_of_contentItems {g : Scalar → Scalar}
    (hg : ∀ x x', read x = some x' → g x = x') {room : Nat} :
    {items : Items} → {ds es : List Doc} → RendersItems read items ds →
      contentItems room items = .ok es → es = Doc.mapItems g ds
  | _, _, _, .closed, he => by
    cases he
    rfl
  | _, _, _, .item hitem hrest, he => by
    simp only [contentItems, bind_eq_ok_iff, pure_eq_ok] at he
    obtain ⟨e, hes, es', hes', hlist⟩ := he
    cases hlist
    rw [Doc.mapItems, eq_mapScalars_of_content hg hitem hes,
      eq_mapItems_of_contentItems hg hrest hes']

theorem eq_mapFields_of_contentFields {g : Scalar → Scalar}
    (hg : ∀ x x', read x = some x' → g x = x') {room : Nat} :
    {fields : Fields} → {fs es : List (Head × Doc)} → RendersFields read fields fs →
      contentFields room fields = .ok es → es = Doc.mapFields g fs
  | _, _, _, .closed, he => by
    cases he
    rfl
  | _, _, _, .field hkey hvalue hrest, he => by
    simp only [contentFields, content_eq_text hkey, bind_eq_ok_iff, pure_eq_ok, ok_bind] at he
    obtain ⟨e, hes, es', hes', hlist⟩ := he
    cases hlist
    rw [Doc.mapFields, eq_mapScalars_of_content hg hvalue hes,
      eq_mapFields_of_contentFields hg hrest hes']
    rfl
end

mutual
/-- A source that renders a document is taken whole if its scalars were read and there is room. -/
theorem content_eq_ok {g : Scalar → Scalar} (room : Nat) :
    {s : Source} → {d : Doc} → s.Renders read d → d.Over (fun x => read x = some (g x)) →
      d.nesting ≤ room → s.content room = .ok (d.mapScalars g)
  | _, _, @Renders.scalar _ spot value _ _ x htag hvalue _, hd, _ => by
    have hread : read x = some (g x) := hd
    cases value with
    | ok head =>
        obtain rfl : head = .scalar (g x) := by simpa [hread, Except.toOption] using hvalue
        simp [content, htag]
    | error f => simp [hread, Except.toOption] at hvalue
  | _, _, .list htag hitems, hd, hn => by
    rw [Doc.nesting] at hn
    obtain ⟨room, rfl⟩ : ∃ n, room = n + 1 := ⟨room - 1, by omega⟩
    have hcontent := contentItems_eq_ok room hitems hd (by omega)
    simp [content, htag, hcontent, Doc.mapScalars]
  | _, _, .record htag hfields, hd, hn => by
    rw [Doc.nesting] at hn
    obtain ⟨room, rfl⟩ : ∃ n, room = n + 1 := ⟨room - 1, by omega⟩
    have hcontent := contentFields_eq_ok room hfields hd (by omega)
    simp [content, htag, hcontent, Doc.mapScalars]

theorem contentItems_eq_ok {g : Scalar → Scalar} (room : Nat) :
    {items : Items} → {ds : List Doc} → RendersItems read items ds →
      Doc.OverItems (fun x => read x = some (g x)) ds → Doc.nestingItems ds ≤ room →
        contentItems room items = .ok (Doc.mapItems g ds)
  | _, _, .closed, _, _ => rfl
  | _, _, .item hitem hrest, hd, hn => by
    rw [Doc.nestingItems] at hn
    have hcontent := content_eq_ok room hitem hd.1 (by omega)
    have hcontents := contentItems_eq_ok room hrest hd.2 (by omega)
    simp [contentItems, hcontent, hcontents, Doc.mapItems]

theorem contentFields_eq_ok {g : Scalar → Scalar} (room : Nat) :
    {fields : Fields} → {fs : List (Head × Doc)} → RendersFields read fields fs →
      Doc.OverFields (fun x => read x = some (g x)) fs → Doc.nestingFields fs ≤ room →
        contentFields room fields = .ok (Doc.mapFields g fs)
  | _, _, .closed, _, _ => rfl
  | _, _, .field hkey hvalue hrest, hd, hn => by
    rw [Doc.nestingFields] at hn
    have hcontent := content_eq_ok room hvalue hd.2.1 (by omega)
    have hcontents := contentFields_eq_ok room hrest hd.2.2 (by omega)
    simp [contentFields, content_eq_text hkey, hcontent, hcontents, Doc.mapFields, Doc.head,
      Doc.text]
end

mutual
/-- Without room enough a source that renders a document is refused for its depth: its scalars
were read, so nothing else is reported before. -/
theorem content_eq_tooDeep {g : Scalar → Scalar} (room : Nat) :
    {s : Source} → {d : Doc} → s.Renders read d → d.Over (fun x => read x = some (g x)) →
      room < d.nesting → ∃ p, s.content room = .error ⟨.tooDeep, some p⟩
  | _, _, .scalar .., _, hn => by simp at hn
  | _, _, @Renders.list _ spot items _ htag hitems, hd, hn => by
    cases room with
    | zero => exact ⟨spot.deep, by simp [content, htag]⟩
    | succ room =>
        rw [Doc.nesting] at hn
        obtain ⟨p, hp⟩ := contentItems_eq_tooDeep room hitems hd (by omega)
        exact ⟨p, by simp [content, htag, hp]⟩
  | _, _, @Renders.record _ spot fields _ htag hfields, hd, hn => by
    cases room with
    | zero => exact ⟨spot.deep, by simp [content, htag]⟩
    | succ room =>
        rw [Doc.nesting] at hn
        obtain ⟨p, hp⟩ := contentFields_eq_tooDeep room hfields hd (by omega)
        exact ⟨p, by simp [content, htag, hp]⟩

theorem contentItems_eq_tooDeep {g : Scalar → Scalar} (room : Nat) :
    {items : Items} → {ds : List Doc} → RendersItems read items ds →
      Doc.OverItems (fun x => read x = some (g x)) ds → room < Doc.nestingItems ds →
        ∃ p, contentItems room items = .error ⟨.tooDeep, some p⟩
  | _, _, .closed, _, hn => by simp [Doc.nestingItems] at hn
  | _, _, @RendersItems.item _ _ _ _ d _ hitem hrest, hd, hn => by
    rw [Doc.nestingItems] at hn
    by_cases hfits : d.nesting ≤ room
    · have hcontent := content_eq_ok room hitem hd.1 hfits
      obtain ⟨p, hp⟩ := contentItems_eq_tooDeep room hrest hd.2 (by omega)
      exact ⟨p, by simp [contentItems, hcontent, hp]⟩
    · obtain ⟨p, hp⟩ := content_eq_tooDeep room hitem hd.1 (by omega)
      exact ⟨p, by simp [contentItems, hp]⟩

theorem contentFields_eq_tooDeep {g : Scalar → Scalar} (room : Nat) :
    {fields : Fields} → {fs : List (Head × Doc)} → RendersFields read fields fs →
      Doc.OverFields (fun x => read x = some (g x)) fs → room < Doc.nestingFields fs →
        ∃ p, contentFields room fields = .error ⟨.tooDeep, some p⟩
  | _, _, .closed, _, hn => by simp [Doc.nestingFields] at hn
  | _, _, @RendersFields.field _ _ _ _ _ _ _ d _ hkey hvalue hrest, hd, hn => by
    rw [Doc.nestingFields] at hn
    by_cases hfits : d.nesting ≤ room
    · have hcontent := content_eq_ok room hvalue hd.2.1 hfits
      obtain ⟨p, hp⟩ := contentFields_eq_tooDeep room hrest hd.2.2 (by omega)
      exact ⟨p, by simp [contentFields, content_eq_text hkey, hcontent, hp]⟩
    · obtain ⟨p, hp⟩ := content_eq_tooDeep room hvalue hd.2.1 (by omega)
      exact ⟨p, by simp [contentFields, content_eq_text hkey, hp]⟩
end

end

/-! ## Recognizing a rendering -/

def isSpelled (spelling : Option String) : Scalar → Bool
  | .text t => spelling = none || spelling = some t
  | _ => true

theorem isSpelled_text {spelling : Option String} {t : String} :
    isSpelled spelling (.text t) = true ↔ spelling = none ∨ spelling = some t := by
  simp [isSpelled]

def isText (s : Source) (t : String) : Bool :=
  match s with
  | .scalar spot value spelling _ =>
    !spot.tagged && value.toOption = some (.scalar (.text t)) && isSpelled spelling (.text t)
  | _ => false

theorem isText_iff {s : Source} {t : String} : s.isText t = true ↔ s.IsText t := by
  cases s with
  | scalar spot value spelling blank =>
      simp [isText, IsText, toOption_eq_some_iff, isSpelled_text, and_assoc]
  | _ => simp [isText, IsText]

section
variable {read : Scalar → Option Scalar}

mutual
def isRendering (read : Scalar → Option Scalar) : Source → Doc → Bool
  | .scalar spot value spelling _, .scalar x =>
    !spot.tagged && value.toOption = (read x).map .scalar && isSpelled spelling x
  | .list spot items, .list ds => !spot.tagged && isRenderingItems read items ds
  | .record spot fields, .record fs => !spot.tagged && isRenderingFields read fields fs
  | _, _ => false

def isRenderingItems (read : Scalar → Option Scalar) : Items → List Doc → Bool
  | .closed _, [] => true
  | .item s _ rest, d :: ds => isRendering read s d && isRenderingItems read rest ds
  | _, _ => false

def isRenderingFields (read : Scalar → Option Scalar) : Fields → List (Head × Doc) → Bool
  | .closed _, [] => true
  | .field key _ value _ rest, (head, d) :: fs =>
    head.name?.any key.isText && isRendering read value d && isRenderingFields read rest fs
  | _, _ => false
end

mutual
theorem renders_of_isRendering (s : Source) (d : Doc) (h : s.isRendering read d = true) :
    s.Renders read d := by
  cases s with
  | scalar spot value spelling blank =>
      cases d with
      | scalar x =>
          rw [isRendering, Bool.and_eq_true, Bool.and_eq_true] at h
          obtain ⟨⟨htag, hvalue⟩, hspelled⟩ := h
          refine .scalar (by simpa using htag) (of_decide_eq_true hvalue) ?_
          rintro t rfl
          exact isSpelled_text.1 hspelled
      | _ => simp [isRendering] at h
  | list spot items =>
      cases d with
      | list ds =>
          rw [isRendering, Bool.and_eq_true] at h
          exact .list (by simpa using h.1) (renders_of_isRenderingItems items ds h.2)
      | _ => simp [isRendering] at h
  | record spot fields =>
      cases d with
      | record fs =>
          rw [isRendering, Bool.and_eq_true] at h
          exact .record (by simpa using h.1) (renders_of_isRenderingFields fields fs h.2)
      | _ => simp [isRendering] at h
  | broken b => simp [isRendering] at h

theorem renders_of_isRenderingItems (items : Items) (ds : List Doc)
    (h : isRenderingItems read items ds = true) : RendersItems read items ds := by
  cases items with
  | closed place =>
      cases ds with
      | nil => exact .closed
      | cons d ds => simp [isRenderingItems] at h
  | broken b => simp [isRenderingItems] at h
  | item s left rest =>
      cases ds with
      | nil => simp [isRenderingItems] at h
      | cons d ds =>
          rw [isRenderingItems, Bool.and_eq_true] at h
          exact .item (renders_of_isRendering s d h.1) (renders_of_isRenderingItems rest ds h.2)

theorem renders_of_isRenderingFields (fields : Fields) (fs : List (Head × Doc))
    (h : isRenderingFields read fields fs = true) : RendersFields read fields fs := by
  cases fields with
  | closed place =>
      cases fs with
      | nil => exact .closed
      | cons e fs => simp [isRenderingFields] at h
  | broken b => simp [isRenderingFields] at h
  | field key keyed value left rest =>
      cases fs with
      | nil => simp [isRenderingFields] at h
      | cons e fs =>
          obtain ⟨head, d⟩ := e
          rw [isRenderingFields, Bool.and_eq_true, Bool.and_eq_true, Option.any_eq_true] at h
          obtain ⟨⟨⟨name, hname, hkey⟩, hvalue⟩, hrest⟩ := h
          obtain rfl := Head.name?_eq_some_iff.1 hname
          exact .field (isText_iff.1 hkey) (renders_of_isRendering value d hvalue)
            (renders_of_isRenderingFields rest fs hrest)
end

end

end Source

end FlowArtifact
