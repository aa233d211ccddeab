import FlowArtifact.Proofs.Source.Rendering

/-!
# Nesting of sources

A reader goes down a given number of levels of lists and records.  What it takes of
a source is taken within this number: a source that is nested deeper has no content.
A source that is nested no deeper has the same content, or the same fault, for every
such number, so the number is not what its reading depends on.
-/

namespace FlowArtifact.Source

mutual
def nesting : Source → Nat
  | .scalar .. | .broken _ => 0
  | .list _ items => 1 + nestingItems items
  | .record _ fields => 1 + nestingFields fields

def nestingItems : Items → Nat
  | .closed _ | .broken _ => 0
  | .item s _ rest => max s.nesting (nestingItems rest)

def nestingFields : Fields → Nat
  | .closed _ | .broken _ => 0
  | .field key _ value _ rest => max key.nesting (max value.nesting (nestingFields rest))
end

theorem nesting_of_isText {s : Source} {t : String} (h : s.IsText t) : s.nesting = 0 := by
  cases s with
  | scalar spot value spelling blank => rw [nesting]
  | _ => exact h.elim

section
variable {read : Scalar → Option Scalar}

mutual
/-- A source is nested as the document that it renders. -/
theorem nesting_of_renders : {s : Source} → {d : Doc} → s.Renders read d → s.nesting = d.nesting
  | _, _, .scalar .. => by rw [nesting, Doc.nesting]
  | _, _, .list _ hitems => by rw [nesting, Doc.nesting, nestingItems_of_renders hitems]
  | _, _, .record _ hfields => by rw [nesting, Doc.nesting, nestingFields_of_renders hfields]

theorem nestingItems_of_renders : {items : Items} → {ds : List Doc} →
    RendersItems read items ds → nestingItems items = Doc.nestingItems ds
  | _, _, .closed => by rw [nestingItems, Doc.nestingItems]
  | _, _, .item hitem hrest => by
    rw [nestingItems, Doc.nestingItems, nesting_of_renders hitem, nestingItems_of_renders hrest]

theorem nestingFields_of_renders : {fields : Fields} → {fs : List (Head × Doc)} →
    RendersFields read fields fs → nestingFields fields = Doc.nestingFields fs
  | _, _, .closed => by rw [nestingFields, Doc.nestingFields]
  | _, _, .field hkey hvalue hrest => by
    rw [nestingFields, Doc.nestingFields, nesting_of_isText hkey, nesting_of_renders hvalue,
      nestingFields_of_renders hrest, Nat.zero_max]
end

end

mutual
/-- The content of a source was taken within the room that there was. -/
theorem nesting_le_of_content {room : Nat} :
    (s : Source) → {d : Doc} → s.content room = .ok d → s.nesting ≤ room
  | .scalar .., _, _ => by
    rw [nesting]
    exact Nat.zero_le room
  | .list spot items, d, h => by
    unfold content at h
    split at h
    · cases h
    · cases room with
      | zero => cases h
      | succ room =>
          obtain ⟨ds, hds, -⟩ := bind_eq_ok_iff.1 h
          have hitems := nestingItems_le_of_content items hds
          rw [nesting]
          omega
  | .record spot fields, d, h => by
    unfold content at h
    split at h
    · cases h
    · cases room with
      | zero => cases h
      | succ room =>
          obtain ⟨fs, hfs, -⟩ := bind_eq_ok_iff.1 h
          have hfields := nestingFields_le_of_content fields hfs
          rw [nesting]
          omega
  | .broken b, _, h => by cases h

theorem nestingItems_le_of_content {room : Nat} :
    (items : Items) → {ds : List Doc} → contentItems room items = .ok ds →
      nestingItems items ≤ room
  | .closed _, _, _ | .broken _, _, _ => by
    rw [nestingItems]
    exact Nat.zero_le room
  | .item s _ rest, _, h => by
    rw [contentItems, bind_eq_ok_iff] at h
    obtain ⟨d, hd, h⟩ := h
    obtain ⟨ds, hds, -⟩ := bind_eq_ok_iff.1 h
    rw [nestingItems]
    exact Nat.max_le.2 ⟨nesting_le_of_content s hd, nestingItems_le_of_content rest hds⟩

theorem nestingFields_le_of_content {room : Nat} :
    (fields : Fields) → {fs : List (Head × Doc)} → contentFields room fields = .ok fs →
      nestingFields fields ≤ room
  | .closed _, _, _ | .broken _, _, _ => by
    rw [nestingFields]
    exact Nat.zero_le room
  | .field key _ value _ rest, _, h => by
    rw [contentFields, bind_eq_ok_iff] at h
    obtain ⟨k, hk, h⟩ := h
    obtain ⟨d, hd, h⟩ := bind_eq_ok_iff.1 h
    obtain ⟨fs, hfs, -⟩ := bind_eq_ok_iff.1 h
    rw [nestingFields]
    exact Nat.max_le.2 ⟨nesting_le_of_content key hk,
      Nat.max_le.2 ⟨nesting_le_of_content value hd, nestingFields_le_of_content rest hfs⟩⟩
end

/-- Where a list or a record fits, there is room for what is in it. -/
theorem exists_room {levels room : Nat} (h : 1 + levels ≤ room) :
    ∃ n, room = n + 1 ∧ levels ≤ n :=
  ⟨room - 1, by omega, by omega⟩

mutual
/-- Where there is room enough, more room makes no difference. -/
theorem content_eq_of_nesting_le {room room' : Nat} :
    (s : Source) → s.nesting ≤ room → s.nesting ≤ room' → s.content room = s.content room'
  | .scalar .., _, _ => by rw [content, content]
  | .list spot items, h, h' => by
    rw [nesting] at h h'
    obtain ⟨n, rfl, hn⟩ := exists_room h
    obtain ⟨n', rfl, hn'⟩ := exists_room h'
    have hitems : contentItems n items = contentItems n' items :=
      contentItems_eq_of_nesting_le items hn hn'
    simp only [content, hitems]
  | .record spot fields, h, h' => by
    rw [nesting] at h h'
    obtain ⟨n, rfl, hn⟩ := exists_room h
    obtain ⟨n', rfl, hn'⟩ := exists_room h'
    have hfields : contentFields n fields = contentFields n' fields :=
      contentFields_eq_of_nesting_le fields hn hn'
    simp only [content, hfields]
  | .broken _, _, _ => by rw [content, content]

theorem contentItems_eq_of_nesting_le {room room' : Nat} :
    (items : Items) → nestingItems items ≤ room → nestingItems items ≤ room' →
      contentItems room items = contentItems room' items
  | .closed _, _, _ | .broken _, _, _ => by rw [contentItems, contentItems]
  | .item s _ rest, h, h' => by
    rw [nestingItems] at h h'
    have hitem : s.content room = s.content room' :=
      content_eq_of_nesting_le s (by omega) (by omega)
    have hrest : contentItems room rest = contentItems room' rest :=
      contentItems_eq_of_nesting_le rest (by omega) (by omega)
    rw [contentItems, contentItems, hitem, hrest]

theorem contentFields_eq_of_nesting_le {room room' : Nat} :
    (fields : Fields) → nestingFields fields ≤ room → nestingFields fields ≤ room' →
      contentFields room fields = contentFields room' fields
  | .closed _, _, _ | .broken _, _, _ => by rw [contentFields, contentFields]
  | .field key _ value _ rest, h, h' => by
    rw [nestingFields] at h h'
    have hkey : key.content room = key.content room' :=
      content_eq_of_nesting_le key (by omega) (by omega)
    have hvalue : value.content room = value.content room' :=
      content_eq_of_nesting_le value (by omega) (by omega)
    have hrest : contentFields room rest = contentFields room' rest :=
      contentFields_eq_of_nesting_le rest (by omega) (by omega)
    rw [contentFields, contentFields, hkey, hvalue, hrest]
end

end FlowArtifact.Source
