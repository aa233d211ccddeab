import FlowArtifact.Location
import FlowArtifact.Proofs.Outcome

/-!
# The names and parts of locations

What the checks of names and parts accept, said of the characters alone:

* `checkText_eq_ok_iff` — a part holds something, and none of the reserved characters;
* `checkGlobalName_eq_ok_iff` — a global name may be a placeholder as well.

No such text holds a separator, and numbers and the reserved words are among the parts.
-/

namespace FlowArtifact.Location

/-- A name that locations can begin with: a placeholder, or a text without reserved characters. -/
def IsGlobalName (name : String) : Prop :=
  (∃ inner, inner ≠ [] ∧ '/' ∉ inner ∧ name.toList = ['$', '{'] ++ inner ++ ['}']) ∨
    (name ≠ "" ∧ ∀ c ∈ name.toList, c ∉ ['/', '[', ']', '{', '}', '#'])

theorem placeholder?_eq_some_iff {name : String} {inner : List Char} :
    placeholder? name = some inner ↔
      inner ≠ [] ∧ '/' ∉ inner ∧ name.toList = ['$', '{'] ++ inner ++ ['}'] := by
  simp only [placeholder?, Option.bind_eq_bind, Option.bind_eq_some_iff,
    Text.dropStart?_eq_some_iff, Text.dropEnd?_eq_some_iff]
  constructor
  · rintro ⟨rest, hname, stop, rfl, hinner⟩
    by_cases hclean : stop ≠ [] ∧ separator ∉ stop
    · rw [if_pos hclean] at hinner
      cases hinner
      exact ⟨hclean.1, hclean.2, by rw [hname, List.append_assoc]⟩
    · rw [if_neg hclean] at hinner
      cases hinner
  · rintro ⟨hne, hclean, hname⟩
    refine ⟨inner ++ ['}'], by rw [hname, List.append_assoc], inner, rfl, ?_⟩
    rw [if_pos ⟨hne, hclean⟩]

theorem checkText_eq_ok_iff {role : Role} {text : String} :
    checkText role text = .ok () ↔
      text ≠ "" ∧ ∀ c ∈ text.toList, c ∉ ['/', '[', ']', '{', '}', '#'] := by
  unfold checkText
  by_cases hempty : text = ""
  · simp [hempty]
  · rw [if_neg hempty]
    have hreserved : text.toList.find? isReserved = none ↔
        ∀ c ∈ text.toList, c ∉ ['/', '[', ']', '{', '}', '#'] := by
      simp [List.find?_eq_none, isReserved, and_assoc]
    rw [← hreserved]
    cases text.toList.find? isReserved <;> simp [hempty]

theorem checkGlobalName_eq_ok_iff {name : String} :
    checkGlobalName name = .ok () ↔ IsGlobalName name := by
  unfold checkGlobalName IsGlobalName
  cases hinner : placeholder? name with
  | some inner => simpa using .inl ⟨inner, placeholder?_eq_some_iff.1 hinner⟩
  | none =>
      have hnone : ¬∃ inner, inner ≠ [] ∧ '/' ∉ inner ∧
          name.toList = ['$', '{'] ++ inner ++ ['}'] := by
        rintro ⟨inner, h⟩
        rw [placeholder?_eq_some_iff.2 h] at hinner
        cases hinner
      rw [or_iff_right hnone]
      exact checkText_eq_ok_iff

/-! ## Separators -/

theorem separator_notMem_of_checkText {role : Role} {text : String}
    (h : checkText role text = .ok ()) : separator ∉ text.toList :=
  fun hmem => (checkText_eq_ok_iff.1 h).2 separator hmem (by decide)

theorem separator_notMem_of_checkGlobalName {name : String}
    (h : checkGlobalName name = .ok ()) : separator ∉ name.toList := by
  rcases checkGlobalName_eq_ok_iff.1 h with ⟨inner, -, hclean, hname⟩ | ⟨-, hclean⟩
  · rw [hname]
    simpa [separator] using hclean
  · exact fun hmem => hclean separator hmem (by decide)

/-! ## Numbers and reserved words -/

theorem isNumeric_digitChars (n : Nat) : isNumeric (String.ofList (digitChars n)) = true := by
  have hne : digitChars n ≠ [] := Nat.toDigits_ne_nil
  have hall : ∀ c ∈ digitChars n, c.isDigit = true := fun c hc =>
    Nat.isDigit_of_mem_toDigits (by decide) (by decide) hc
  simpa [isNumeric] using ⟨hne, hall⟩

theorem checkText_of_isNumeric {role : Role} {text : String} (h : isNumeric text = true) :
    checkText role text = .ok () := by
  simp only [isNumeric, ne_eq, Bool.and_eq_true, decide_eq_true_eq, List.all_eq_true] at h
  refine checkText_eq_ok_iff.2 ⟨h.1, fun c hc hreserved => ?_⟩
  have hdigit := h.2 c hc
  simp only [List.mem_cons, List.not_mem_nil, or_false] at hreserved
  rcases hreserved with rfl | rfl | rfl | rfl | rfl | rfl <;> exact absurd hdigit (by decide)

theorem checkText_token (t : Token) : checkText .part t.text = .ok () := by
  cases t <;> rfl

theorem isNumeric_token (t : Token) : isNumeric t.text = false := by
  cases t <;> decide +kernel

end FlowArtifact.Location
