import FlowArtifact.Proofs.Declaration.Reading
import FlowArtifact.Proofs.Doc

/-!
# Plain sources

A source is plain if it says no more than a document: no part has a tag or a
spelling of its own, and keys are texts.  The document that is taken of a plain
source has texts for keys and holds no zero with a minus sign, and an artifact is
read from a plain source by way of its document.
-/

namespace FlowArtifact

namespace Source

def PlainKey : Source → Prop
  | .scalar spot value spelling _ =>
    spot.tagged = false ∧ spelling = none ∧
      ∃ v : Read String, value = v.map fun t => .scalar (.text t)
  | _ => False

mutual
/-- No part has a tag or a spelling of its own or is nothing at all, and keys are texts. -/
def Plain : Source → Prop
  | .scalar spot value spelling blank =>
    spot.tagged = false ∧ spelling = none ∧ blank = false ∧
      ∃ v : Read Scalar, value = v.map .scalar
  | .list spot items => spot.tagged = false ∧ PlainItems items
  | .record spot fields => spot.tagged = false ∧ PlainFields fields
  | .broken _ => True

def PlainItems : Items → Prop
  | .closed _ | .broken _ => True
  | .item s _ rest => s.Plain ∧ PlainItems rest

def PlainFields : Fields → Prop
  | .closed _ | .broken _ => True
  | .field key _ value _ rest => key.PlainKey ∧ value.Plain ∧ PlainFields rest
end

theorem faithful_of_plainKey {s : Source} (h : s.PlainKey) : s.Faithful := by
  cases s with
  | scalar spot value spelling blank =>
      obtain ⟨htag, rfl, -⟩ := h
      exact ⟨htag, by simp⟩
  | _ => exact h.elim

theorem faithful_of_plain {s : Source} (h : s.Plain) : s.Faithful := by
  cases s with
  | scalar spot value spelling blank =>
      obtain ⟨htag, rfl, -⟩ := h
      exact ⟨htag, by simp⟩
  | _ => trivial

theorem content_eq_text_of_plainKey {s : Source} (h : s.PlainKey) {room : Nat} {d : Doc}
    (hd : s.content room = .ok d) : ∃ t, d = .text t := by
  cases s with
  | scalar spot value spelling blank =>
      obtain ⟨htag, -, v, rfl⟩ := h
      cases v with
      | ok t =>
          obtain rfl : Doc.text t = d := by simpa [content, htag, Except.map, Doc.text] using hd
          exact ⟨t, rfl⟩
      | error f => simp [content, htag, Except.map] at hd
  | _ => exact h.elim

mutual
theorem over_of_content {room : Nat} :
    {s : Source} → {d : Doc} → s.Plain → s.content room = .ok d → d.Over fun _ => True
  | .scalar spot value spelling blank, d, ⟨htag, _, _, v, hv⟩, hd => by
    subst hv
    cases v with
    | ok x =>
        obtain rfl : Doc.scalar x = d := by simpa [content, htag, Except.map] using hd
        trivial
    | error f => simp [content, htag, Except.map] at hd
  | .list spot items, d, ⟨htag, hitems⟩, hd => by
    cases room with
    | zero => simp [content, htag] at hd
    | succ room =>
        simp only [content, htag, Bool.false_eq_true, if_false, bind_eq_ok_iff, pure_eq_ok,
          Except.ok.injEq] at hd
        obtain ⟨ds, hds, rfl⟩ := hd
        exact overItems_of_contentItems hitems hds
  | .record spot fields, d, ⟨htag, hfields⟩, hd => by
    cases room with
    | zero => simp [content, htag] at hd
    | succ room =>
        simp only [content, htag, Bool.false_eq_true, if_false, bind_eq_ok_iff, pure_eq_ok,
          Except.ok.injEq] at hd
        obtain ⟨ds, hds, rfl⟩ := hd
        exact overFields_of_contentFields hfields hds
  | .broken b, d, _, hd => by cases hd

theorem overItems_of_contentItems {room : Nat} : {items : Items} → {ds : List Doc} →
    PlainItems items → contentItems room items = .ok ds → Doc.OverItems (fun _ => True) ds
  | .closed _, _, _, hds => by
    cases hds
    trivial
  | .broken _, _, _, hds => by cases hds
  | .item s _ rest, ds, h, hds => by
    simp only [contentItems, bind_eq_ok_iff, pure_eq_ok, Except.ok.injEq] at hds
    obtain ⟨d, hd, ds, hds, rfl⟩ := hds
    exact ⟨over_of_content h.1 hd, overItems_of_contentItems h.2 hds⟩

theorem overFields_of_contentFields {room : Nat} : {fields : Fields} → {ds : List (Head × Doc)} →
    PlainFields fields → contentFields room fields = .ok ds → Doc.OverFields (fun _ => True) ds
  | .closed _, _, _, hds => by
    cases hds
    trivial
  | .broken _, _, _, hds => by cases hds
  | .field key _ value _ rest, ds, h, hds => by
    simp only [contentFields, bind_eq_ok_iff, pure_eq_ok, Except.ok.injEq] at hds
    obtain ⟨k, hk, d, hd, ds, hds, rfl⟩ := hds
    obtain ⟨t, rfl⟩ := content_eq_text_of_plainKey h.1 hk
    exact ⟨⟨t, rfl⟩, over_of_content h.2.1 hd, overFields_of_contentFields h.2.2 hds⟩
end

end Source

/-! ## Artifacts -/

theorem Items.all_of_plain {p : Source → Prop} (h : ∀ s : Source, s.Plain → p s) :
    (items : Items) → Source.PlainItems items → items.All p
  | .closed _, _ | .broken _, _ => trivial
  | .item s _ rest, hitems => ⟨h s hitems.1, Items.all_of_plain h rest hitems.2⟩

theorem Fields.all_of_plain {p : Source → Source → Prop}
    (h : ∀ key value : Source, key.PlainKey → value.Plain → p key value) :
    (fields : Fields) → Source.PlainFields fields → fields.All p
  | .closed _, _ | .broken _, _ => trivial
  | .field key _ value _ rest, hfields =>
    ⟨h key value hfields.1 hfields.2.1, Fields.all_of_plain h rest hfields.2.2⟩

theorem GlobalElement.legible_of_plain {s : Source} (h : s.Plain) : Legible s := by
  cases s with
  | record spot fields =>
      exact Fields.all_of_plain (fun _ _ _ hvalue => Source.faithful_of_plain hvalue) fields h.2
  | _ => trivial

theorem GlobalElement.listLegible_of_plain {s : Source} (h : s.Plain) : ListLegible s := by
  cases s with
  | scalar spot value spelling blank => exact h.2.2.1
  | list spot items => exact ⟨h.1, Items.all_of_plain (fun _ => legible_of_plain) items h.2⟩
  | _ => trivial

theorem Artifact.legible_of_plain {s : Source} (h : s.Plain) : Legible s := by
  cases s with
  | scalar spot value spelling blank => exact h.2.2.1
  | record spot fields =>
      refine ⟨h.1, Fields.all_of_plain (fun key value hkey hvalue => ?_) fields h.2⟩
      exact ⟨Source.faithful_of_plainKey hkey, fun _ => GlobalElement.listLegible_of_plain hvalue⟩
  | _ => trivial

end FlowArtifact
