/-!
# Beginnings and ends of texts
-/

namespace FlowArtifact.Text

def dropStart? : (start text : List Char) → Option (List Char)
  | [], text => some text
  | _ :: _, [] => none
  | a :: start, c :: text => if a = c then dropStart? start text else none

def dropEnd? (stop text : List Char) : Option (List Char) :=
  (dropStart? stop.reverse text.reverse).map List.reverse

theorem dropStart?_eq_some_iff {start text rest : List Char} :
    dropStart? start text = some rest ↔ text = start ++ rest := by
  induction start generalizing text with
  | nil => simp [dropStart?]
  | cons a start ih =>
    cases text with
    | nil => simp [dropStart?]
    | cons c text =>
      by_cases h : a = c
      · simp [dropStart?, h, ih]
      · simp [dropStart?, h, Ne.symm h]

theorem dropEnd?_eq_some_iff {stop text rest : List Char} :
    dropEnd? stop text = some rest ↔ text = rest ++ stop := by
  rw [dropEnd?, Option.map_eq_some_iff]
  constructor
  · rintro ⟨u, hu, rfl⟩
    have := congrArg List.reverse (dropStart?_eq_some_iff.1 hu)
    simpa using this
  · rintro rfl
    exact ⟨rest.reverse, dropStart?_eq_some_iff.2 (by simp), by simp⟩

end FlowArtifact.Text
