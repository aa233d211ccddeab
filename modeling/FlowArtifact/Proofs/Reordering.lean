import FlowArtifact.Proofs.Declaration.Order
import FlowArtifact.Proofs.Json.Keys
import FlowArtifact.Proofs.Json.Order
import FlowArtifact.Proofs.Serialization

/-!
# The order of fields in a text

What is read of a JSON text is what is read of the document that it denotes.  Two
texts that denote the same but for the order of fields, however they are laid out,
are therefore read to the same artifact, or both are refused.
-/

namespace FlowArtifact.Artifact

open Json (Denotes)

/-- A JSON text is read by way of the document of what it says. -/
theorem toOption_read_of_denotes {text : String} {t : Json.Tree} (h : Denotes text t) :
    (read .json text).toOption = (t.doc? Json.maxNesting).bind ofDoc? := by
  obtain ⟨s, hs, hreading⟩ := Json.read_of_denotes h
  have hplain : s.Plain := by
    have hroot := Json.plain_read text
    rwa [hreading] at hroot
  have hread : read .json text = ofSource Json.maxNesting s := read_of_reading hreading
  rw [hread, toOption_ofSource _ (legible_of_plain hplain), Json.toOption_content _ hs]

theorem bind_ofDoc?_reordered {d? e? : Option Doc} (h : Option.Rel Doc.Reordered d? e?) :
    d?.bind ofDoc? = e?.bind ofDoc? := by
  cases h with
  | some hsame => exact ofDoc?_reordered hsame
  | none => rfl

/-- Neither the layout of a JSON text nor the order of the fields in it is seen by the reader. -/
theorem deserialize_reordered {text text' : String} {t u : Json.Tree} (htext : Denotes text t)
    (htext' : Denotes text' u) (hsame : t.Reordered u) :
    (∀ a, deserialize .json text = .ok a ↔ deserialize .json text' = .ok a) ∧
      ∀ a b, deserialize .json text = .ok a → deserialize .json text' = .ok b →
        a.fingerprint = b.fingerprint := by
  have hread : (read .json text).toOption = (read .json text').toOption := by
    rw [toOption_read_of_denotes htext, toOption_read_of_denotes htext',
      bind_ofDoc?_reordered (Json.Tree.doc?_reordered _ hsame)]
  have hiff (a : Artifact) : deserialize .json text = .ok a ↔ deserialize .json text' = .ok a := by
    rw [deserialize_eq_ok_iff, deserialize_eq_ok_iff, ← toOption_eq_some_iff, hread,
      toOption_eq_some_iff]
  refine ⟨hiff, fun a b ha hb => ?_⟩
  have hequal := (hiff a).1 ha
  rw [hb] at hequal
  cases hequal
  rfl

def orderlyDoc : Doc :=
  .named [("name", .text "app"), ("globalElements", .list [.named [("kind", .text "construct"),
    ("name", .text "flow"), ("components", .list [.named [("kind", .text "router"),
      ("name", .text "choice")]])]])]

/-- The same flow: the elements come first, and no kind stands in front of the other fields. -/
def shuffledDoc : Doc :=
  .named [("globalElements", .list [.named [("components", .list [.named [("name", .text "choice"),
    ("kind", .text "router")]]), ("kind", .text "construct"), ("name", .text "flow")]]),
      ("name", .text "app")]

theorem reordered_shuffledDoc : (Json.Tree.ofDoc orderlyDoc).Reordered (.ofDoc shuffledDoc) := by
  have hrouter : Json.Tree.Reordered
      (.record [(some "kind", .text (some "router")), (some "name", .text (some "choice"))])
      (.record [(some "name", .text (some "choice")), (some "kind", .text (some "router"))]) :=
    .record (by decide) (.cons (.text _) (.cons (.text _) .nil)) (.swap _ _ _)
  refine .record (by decide) (.cons (.text _) (.cons (.list (.cons ?_ .nil)) .nil)) (.swap _ _ _)
  exact .record (by decide)
    (.cons (.text _) (.cons (.text _) (.cons (.list (.cons hrouter .nil)) .nil)))
    (@List.perm_append_comm _ [_, _] [_])

/-- The flow on one line, and with other orders of its fields on many lines. -/
theorem deserialize_reordered_shuffledDoc :
    Denotes (Json.compact orderlyDoc) (.ofDoc orderlyDoc) ∧
      Denotes (Json.pretty shuffledDoc) (.ofDoc shuffledDoc) ∧
      (Json.Tree.ofDoc orderlyDoc).Reordered (.ofDoc shuffledDoc) ∧
      ∃ a, deserialize .json (Json.compact orderlyDoc) = .ok a ∧
        deserialize .json (Json.pretty shuffledDoc) = .ok a := by
  have horderly : orderlyDoc.Over fun _ => True := by
    simp [orderlyDoc, Doc.over_named, Doc.over_list, Doc.text]
  have hshuffled : shuffledDoc.Over fun _ => True := by
    simp [shuffledDoc, Doc.over_named, Doc.over_list, Doc.text]
  have htext : Denotes (Json.compact orderlyDoc) (.ofDoc orderlyDoc) :=
    Json.denotes_written horderly false
  have htext' : Denotes (Json.pretty shuffledDoc) (.ofDoc shuffledDoc) :=
    Json.denotes_written hshuffled true
  obtain ⟨hiff, -⟩ := deserialize_reordered htext htext' reordered_shuffledDoc
  have hread : (deserialize .json (Json.compact orderlyDoc)).toOption.isSome = true := by
    decide +kernel
  obtain ⟨a, ha⟩ := Option.isSome_iff_exists.1 hread
  have hok := toOption_eq_some_iff.1 ha
  exact ⟨htext, htext', reordered_shuffledDoc, a, hok, (hiff a).1 hok⟩

end FlowArtifact.Artifact
