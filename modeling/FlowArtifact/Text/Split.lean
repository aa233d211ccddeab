/-!
# Texts in parts

A text is cut at every occurrence of a separator. There is always a first part; between adjacent
separators and at the ends of the text parts may be empty.
-/

namespace FlowArtifact.Text

/-- The part before the first separator and the parts behind the separators. -/
def cut (separator : Char) : List Char → List Char × List (List Char)
  | [] => ([], [])
  | c :: rest =>
    let (first, others) := cut separator rest
    if c = separator then ([], first :: others) else (c :: first, others)

def glue (separator : Char) (first : List Char) : List (List Char) → List Char
  | [] => first
  | part :: others => first ++ separator :: glue separator part others

theorem glue_cut (separator : Char) (text : List Char) :
    glue separator (cut separator text).1 (cut separator text).2 = text := by
  induction text with
  | nil => rfl
  | cons c rest ih =>
    by_cases h : c = separator
    · simp [cut, h, glue, ih]
    · rw [cut]
      simp only [h, if_false]
      cases hc : (cut separator rest).2 with
      | nil => rw [hc] at ih; simp_all [glue]
      | cons part others => rw [hc] at ih; simp_all [glue]

theorem cut_eq_of_notMem {separator : Char} {text : List Char} (h : separator ∉ text) :
    cut separator text = (text, []) := by
  induction text with
  | nil => rfl
  | cons c rest ih =>
    have hc : c ≠ separator := fun e => h (e ▸ List.mem_cons_self)
    have hr : separator ∉ rest := fun m => h (List.mem_cons_of_mem _ m)
    simp [cut, ih hr, hc]

theorem cut_append_cons {separator : Char} {part : List Char} (h : separator ∉ part)
    (rest : List Char) :
    cut separator (part ++ separator :: rest) =
      (part, (cut separator rest).1 :: (cut separator rest).2) := by
  induction part with
  | nil => simp [cut]
  | cons c part ih =>
    have hc : c ≠ separator := fun e => h (e ▸ List.mem_cons_self)
    have hp : separator ∉ part := fun m => h (List.mem_cons_of_mem _ m)
    simp [cut, ih hp, hc]

theorem cut_glue {separator : Char} {first : List Char} {others : List (List Char)}
    (hf : separator ∉ first) (ho : ∀ part ∈ others, separator ∉ part) :
    cut separator (glue separator first others) = (first, others) := by
  induction others generalizing first with
  | nil => exact cut_eq_of_notMem hf
  | cons part others ih =>
    rw [glue, cut_append_cons hf,
      ih (ho part List.mem_cons_self) fun p hp => ho p (List.mem_cons_of_mem _ hp)]

def split (separator : Char) (text : String) : String × List String :=
  let (first, others) := cut separator text.toList
  (String.ofList first, others.map String.ofList)

end FlowArtifact.Text
