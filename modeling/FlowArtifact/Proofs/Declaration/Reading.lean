import FlowArtifact.Declaration.Reading
import FlowArtifact.Proofs.Outcome

/-!
# Reading artifacts by way of their documents

An artifact is read straight from its source, part by part, so that the first
misfit wins.  Whether it is read at all, and what is read, depends on the content
of the source alone: `Artifact.ofDoc?` reads it from there.  The source must be
legible: where a text is asked for, a scalar is spelled as the text that it is.
-/

namespace FlowArtifact

theorem toOption_settle {α : Type} (p : Place) (x : Read α) :
    (x.settle p).toOption = x.toOption := by
  cases x <;> rfl

theorem toOption_toRead {α : Type} (x : Fit α) : x.toRead.toOption = x.toOption := by
  cases x <;> rfl

def Items.All (p : Source → Prop) : Items → Prop
  | .closed _ | .broken _ => True
  | .item s _ rest => p s ∧ rest.All p

def Fields.All (p : Source → Source → Prop) : Fields → Prop
  | .closed _ | .broken _ => True
  | .field key _ value _ rest => p key value ∧ rest.All p

namespace Source

/-- A scalar that has a spelling is the text that it is spelled as. -/
def Faithful : Source → Prop
  | .scalar spot value spelling _ =>
    spot.tagged = false ∧ ∀ t, spelling = some t → value = .ok (.scalar (.text t))
  | _ => True

theorem content_eq_text_iff {s : Source} (h : s.Faithful) {t : String} (room : Nat) :
    s.content room = .ok (.text t) ↔ s.asText? = some t := by
  cases s with
  | scalar spot value spelling blank =>
      obtain ⟨htag, hspell⟩ := h
      cases spelling with
      | some t' =>
          obtain rfl := hspell t' rfl
          simp [content, htag, asText?, Doc.text]
      | none =>
          rcases value with _ | ((_ | _ | _ | _ | _) | _ | _ | _ | _ | _) <;>
            simp [content, htag, asText?, Doc.text]
  | list spot items =>
      simp only [content, asText?, Doc.text]
      split
      · simp
      · cases room <;> simp [bind_eq_ok_iff]
  | record spot fields =>
      simp only [content, asText?, Doc.text]
      split
      · simp
      · cases room <;> simp [bind_eq_ok_iff]
  | broken b => simp [content, asText?]

theorem name?_head_eq_asText? {s : Source} (h : s.Faithful) {room : Nat} {d : Doc}
    (hd : s.content room = .ok d) : d.head.name? = s.asText? := by
  cases ht : s.asText? with
  | some t =>
      rw [(content_eq_text_iff h room).2 ht] at hd
      cases hd
      rfl
  | none =>
      have hne : ∀ t, d ≠ .text t := by
        rintro t rfl
        rw [(content_eq_text_iff h room).1 hd] at ht
        cases ht
      cases d with
      | scalar x =>
          cases x with
          | text t => exact absurd rfl (hne t)
          | _ => rfl
      | _ => rfl

end Source

/-! ## Elements -/

namespace GlobalElement

def kindOf? : Doc → Option Kind
  | .scalar (.text name) => (Kind.ofName name).toOption
  | _ => none

def splitKind? (kind : Option Kind) (done : List (Head × Doc)) :
    List (Head × Doc) → Option (Kind × List (Head × Doc))
  | [] => kind.map fun k => (k, done)
  | (key, d) :: rest =>
    if key = kindKey then
      match kind with
      | some _ => none
      | none => (kindOf? d).bind fun k => splitKind? (some k) done rest
    else splitKind? kind ((key, d) :: done) rest

def ofDoc? : Doc → Option GlobalElement
  | .record fields =>
    (splitKind? none [] fields).bind fun r => (ofContent r.1 (.record r.2.reverse)).toOption
  | _ => none

/-- Where the kind of the element is looked for, a text is spelled as it is. -/
def Legible : Source → Prop
  | .record _ fields => fields.All fun _ value => value.Faithful
  | _ => True

theorem toOption_readKey (room : Nat) (s : Source) :
    (readKey room s).toOption = (s.content room).toOption.map Doc.head := by
  unfold readKey
  split
  · simp [Source.content]
  · rw [toOption_bind]
    cases s.content room <;> rfl

theorem toOption_readKind {s : Source} (h : s.Faithful) (room : Nat) :
    (readKind s).toOption = (s.content room).toOption.bind kindOf? := by
  have hscalar (t : String) (ht : s.asText? = some t) :
      (readKind s).toOption = (Kind.ofName t).toOption := by
    cases s with
    | scalar spot value spelling blank =>
        simp only [readKind, ht, toOption_settle, toOption_toRead]
    | _ => cases ht
  cases ht : s.asText? with
  | some t =>
      rw [hscalar t ht, (Source.content_eq_text_iff h room).2 ht]
      rfl
  | none =>
      have hnone : (s.content room).toOption.bind kindOf? = none := by
        cases hcontent : s.content room with
        | error f => rfl
        | ok d =>
            have hname := Source.name?_head_eq_asText? h hcontent
            rw [ht] at hname
            cases d with
            | scalar x =>
                cases x with
                | text t => cases hname
                | _ => rfl
            | _ => rfl
      rw [hnone]
      unfold readKind
      rw [ht]
      rfl

theorem toOption_readFields (room : Nat) : (fields : Fields) →
    fields.All (fun _ value => value.Faithful) → ∀ kind done,
      (readFields room kind done fields).toOption =
        (Source.contentFields room fields).toOption.bind (splitKind? kind done)
  | .closed _, _, kind, done => by
    cases kind <;> rfl
  | .broken _, _, _, _ => rfl
  | .field key keyed value left rest, h, kind, done => by
    unfold readFields Source.contentFields
    rw [toOption_bind, toOption_readKey]
    cases hkey : key.content room with
    | error f => rfl
    | ok k =>
        simp only [toOption_ok, Option.map_some, Option.bind_some, ok_bind]
        -- A kind is read at once and another field later, but either fails if its content does.
        by_cases hk : k.head = kindKey
        · rw [if_pos hk]
          cases kind with
          | some _ =>
              cases value.content room with
              | error f => rfl
              | ok d => cases Source.contentFields room rest <;> simp [splitKind?, hk]
          | none =>
              simp only [toOption_bind, toOption_settle, toOption_readKind h.1 room,
                toOption_readFields room rest h.2]
              cases value.content room with
              | error f => rfl
              | ok d =>
                  cases Source.contentFields room rest with
                  | error f => simp
                  | ok fs => simp [splitKind?, hk]
        · rw [if_neg hk, toOption_bind]
          cases value.content room with
          | error f => rfl
          | ok d =>
              simp only [toOption_ok, Option.bind_some, ok_bind, toOption_bind,
                toOption_readFields room rest h.2]
              cases Source.contentFields room rest <;> simp [splitKind?, hk]

/-- A list does not say what element it is. -/
theorem toOption_ofContent_list (kind : Kind) (docs : List Doc) :
    (ofContent kind (.list docs)).toOption = none := by
  cases kind <;> rfl

theorem toOption_ofSource (room : Nat) {s : Source} (h : Legible s) :
    (ofSource room s).toOption = (s.content room).toOption.bind ofDoc? := by
  unfold ofSource Source.content
  cases s with
  | scalar spot value spelling blank =>
      dsimp only
      split
      · rfl
      · rcases value with _ | (_ | _ | _ | _ | _ | _) <;> rfl
  | broken b => rfl
  | list spot items =>
      dsimp only
      split
      · rfl
      · cases room with
        | zero => rfl
        | succ room =>
            dsimp only
            -- Neither reader makes an element of a list, whatever its kind.
            have hnone : (Source.contentItems room items >>= fun ds =>
                (pure (.list ds) : Read Doc)).toOption.bind ofDoc? = none := by
              cases Source.contentItems room items <;> rfl
            rw [hnone]
            cases items with
            | item first left rest =>
                simp only [toOption_bind, toOption_toRead, toOption_ofContent_list]
                simp
            | _ => rfl
  | record spot fields =>
      dsimp only
      split
      · rfl
      · cases room with
        | zero => rfl
        | succ room =>
            simp only [toOption_bind, toOption_toRead, toOption_readFields room fields h]
            cases Source.contentFields room fields <;> rfl

theorem toOption_ofItems (room : Nat) : (items : Items) → items.All Legible →
    (ofItems room items).toOption =
      (Source.contentItems room items).toOption.bind fun ds => ds.mapM ofDoc?
  | .closed _, _ => rfl
  | .broken _, _ => rfl
  | .item s left rest, h => by
    unfold ofItems Source.contentItems
    simp only [toOption_bind, toOption_settle, toOption_ofSource room h.1,
      toOption_ofItems room rest h.2]
    cases s.content room with
    | error f => rfl
    | ok d =>
        cases Source.contentItems room rest with
        | error f => simp
        | ok ds => simp [List.mapM_cons]

def listOfDoc? : Doc → Option (List GlobalElement)
  | .list items => items.mapM ofDoc?
  | _ => none

def ListLegible : Source → Prop
  | .list spot items => spot.tagged = false ∧ items.All Legible
  | .scalar _ _ _ blank => blank = false
  | _ => True

theorem toOption_listOfSource (room : Nat) {s : Source} (h : ListLegible s) :
    (listOfSource room s).toOption = (s.content room).toOption.bind listOfDoc? := by
  unfold listOfSource Source.content
  cases s with
  | scalar spot value spelling blank =>
      obtain rfl : blank = false := h
      dsimp only
      split
      · rfl
      · rcases value with _ | (_ | _ | _ | _ | _ | _) <;> rfl
  | broken b => rfl
  | list spot items =>
      dsimp only
      rw [h.1, if_neg (by decide)]
      cases room with
      | zero => rfl
      | succ room =>
          dsimp only
          rw [toOption_ofItems room items h.2]
          cases Source.contentItems room items <;> rfl
  | record spot fields =>
      dsimp only
      split
      · rfl
      · cases room with
        | zero => rfl
        | succ room =>
            dsimp only
            cases Source.contentFields room fields <;> rfl

end GlobalElement

/-! ## Artifacts -/

namespace Artifact

def splitElements? (elements : Option (List GlobalElement)) (others : List (Head × Doc)) :
    List (Head × Doc) → Option Artifact
  | [] => (Attributes.ofFields others.reverse).toOption.map fun attributes =>
    ⟨attributes, elements.getD []⟩
  | (key, d) :: rest =>
    match key.name? with
    | none => none
    | some name =>
      if name = "globalElements" then
        match elements with
        | some _ => none
        | none => (GlobalElement.listOfDoc? d).bind fun es => splitElements? (some es) others rest
      else splitElements? elements ((.scalar (.text name), d) :: others) rest

def ofDoc? : Doc → Option Artifact
  | .record fields => splitElements? none [] fields
  | _ => none

/-- Keys are spelled as they are, and so is what is asked for in the list of elements. -/
def FieldLegible (key value : Source) : Prop :=
  key.Faithful ∧ (key.asText? = some "globalElements" → GlobalElement.ListLegible value)

def Legible : Source → Prop
  | .record spot fields => spot.tagged = false ∧ fields.All FieldLegible
  | .scalar _ _ _ blank => blank = false
  | _ => True

theorem toOption_readFields (room : Nat) : (fields : Fields) → fields.All FieldLegible →
    ∀ elements others, (readFields room elements others fields).toOption =
      (Source.contentFields room fields).toOption.bind (splitElements? elements others)
  | .closed place, _, elements, others => by
    unfold readFields finish
    rw [toOption_bind, toOption_settle, toOption_toRead]
    simp only [Source.contentFields, splitElements?, pure_eq_ok, toOption_ok, Option.bind_some]
    cases (Attributes.ofFields others.reverse).toOption <;> rfl
  | .broken _, _, _, _ => rfl
  | .field key keyed value left rest, h, elements, others => by
    obtain ⟨⟨hkey, hvalue⟩, hrest⟩ := h
    unfold readFields Source.contentFields
    cases hcontent : key.content room with
    | error f =>
        have hnone : key.asText? = none := by
          cases ht : key.asText? with
          | none => rfl
          | some t =>
              rw [(Source.content_eq_text_iff hkey room).2 ht] at hcontent
              cases hcontent
        rw [hnone]
        rfl
    | ok k =>
        have hasText := Source.name?_head_eq_asText? hkey hcontent
        rw [ok_bind, ← hasText]
        cases hname : k.head.name? with
        | none =>
            cases value.content room with
            | error f => rfl
            | ok d => cases Source.contentFields room rest <;> simp [splitElements?, hname]
        | some name =>
            dsimp only
            by_cases helements : name = "globalElements"
            · rw [if_pos helements]
              -- A second list is refused by both, here before its content is taken.
              cases elements with
              | some _ =>
                  cases value.content room with
                  | error f => rfl
                  | ok d =>
                      cases Source.contentFields room rest <;>
                        simp [splitElements?, hname, helements]
              | none =>
                  have hlegible := hvalue (by rw [← hasText, hname, helements])
                  simp only [toOption_bind, toOption_settle, toOption_readFields room rest hrest,
                    GlobalElement.toOption_listOfSource room hlegible]
                  cases value.content room with
                  | error f => rfl
                  | ok d =>
                      cases Source.contentFields room rest with
                      | error f => simp
                      | ok fs => simp [splitElements?, hname, helements]
            · rw [if_neg helements, toOption_bind]
              simp only [toOption_readFields room rest hrest]
              cases value.content room with
              | error f => rfl
              | ok d =>
                  cases Source.contentFields room rest <;> simp [splitElements?, hname, helements]

/-- What is read of a legible source is what is read of its content. -/
theorem toOption_ofSource (room : Nat) {s : Source} (h : Legible s) :
    (ofSource room s).toOption = (s.content room).toOption.bind ofDoc? := by
  unfold ofSource Source.content
  cases s with
  | scalar spot value spelling blank =>
      obtain rfl : blank = false := h
      dsimp only
      split
      · rfl
      · rcases value with _ | (_ | _ | _ | _ | _ | _) <;> rfl
  | broken b => rfl
  | list spot items =>
      dsimp only
      split
      · rfl
      · cases room with
        | zero => rfl
        | succ room =>
            dsimp only
            cases Source.contentItems room items <;> rfl
  | record spot fields =>
      dsimp only
      rw [h.1, if_neg (by decide)]
      cases room with
      | zero => rfl
      | succ room =>
          dsimp only
          rw [toOption_readFields room fields h.2]
          cases Source.contentFields room fields <;> rfl

end Artifact

end FlowArtifact
