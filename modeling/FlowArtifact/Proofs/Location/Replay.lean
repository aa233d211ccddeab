import FlowArtifact.Location.Builder
import FlowArtifact.Proofs.Location.Names
import Mathlib.Data.List.Chain

/-!
# Replaying the parts of a written location

The parser of locations cuts a text at the separators and appends the pieces one
after another with `addPart`.  This module says when that succeeds: every piece
must pass the check of a text, and each must be allowed to follow the one before
it.
-/

namespace FlowArtifact.Location

/-- A part may stand behind another one: only a number behind `processors`, and
no number behind a number. -/
def MayFollow (last part : String) : Prop :=
  (last = Token.processors.text → isNumeric part = true) ∧
    ¬(isNumeric part = true ∧ isNumeric last = true)

namespace Builder

theorem checkNext_eq_ok_iff (b : Builder) (part : String) :
    b.checkNext part = .ok () ↔ ∀ last ∈ b.path.head?, MayFollow last part := by
  unfold checkNext MayFollow
  cases b.path with
  | nil => simp
  | cons last rest =>
      simp only [List.head?_cons, Option.mem_some_iff, forall_eq']
      by_cases hp : last = Token.processors.text
      · by_cases hn : isNumeric part = true
        · simp [hp, hn, show isNumeric Token.processors.text = false from rfl]
        · simp [hp, hn]
      · by_cases hn : isNumeric part = true ∧ isNumeric last = true
        · simp [hp, hn]
        · simp [hp, hn]

theorem addPart_eq_ok_iff (b b' : Builder) (part : String) :
    b.addPart part = .ok b' ↔
      b.globalName.isSome ∧ checkText .part part = .ok () ∧
        (∀ last ∈ b.path.head?, MayFollow last part) ∧ b' = b.push part := by
  unfold addPart requireGlobalName
  cases b.globalName with
  | none => simp
  | some name =>
      rw [← checkNext_eq_ok_iff]
      simp only [ok_bind, bind_eq_ok_iff, pure_eq_ok, Except.ok.injEq, Option.isSome_some,
        true_and]
      constructor
      · rintro ⟨_, ht, _, hn, rfl⟩
        exact ⟨ht, hn, rfl⟩
      · rintro ⟨ht, hn, rfl⟩
        exact ⟨(), ht, (), hn, rfl⟩

@[simp] theorem globalName_push (b : Builder) (part : String) :
    (b.push part).globalName = b.globalName := rfl

@[simp] theorem path_push (b : Builder) (part : String) :
    (b.push part).path = part :: b.path := rfl

/-- Parts are replayed when each is a text and may follow the one before it. -/
theorem foldlM_addPart_eq_ok_iff (parts : List String) (b b' : Builder)
    (hname : b.globalName.isSome) :
    parts.foldlM addPart b = .ok b' ↔
      (∀ part ∈ parts, checkText .part part = .ok ()) ∧
        (b.path.head?.toList ++ parts).IsChain MayFollow ∧
        b' = { b with path := parts.reverse ++ b.path } := by
  induction parts generalizing b with
  | nil =>
      have hchain : b.path.head?.toList.IsChain MayFollow := by
        cases b.path <;> simp
      simp [hchain, eq_comm]
  | cons part parts ih =>
      rw [List.foldlM_cons, bind_eq_ok_iff]
      simp only [addPart_eq_ok_iff, hname, true_and, List.forall_mem_cons]
      have hhead : (b.path.head?.toList ++ part :: parts).IsChain MayFollow ↔
          (∀ last ∈ b.path.head?, MayFollow last part) ∧
            (part :: parts).IsChain MayFollow := by
        cases b.path <;> simp [List.isChain_cons_cons]
      constructor
      · rintro ⟨c, ⟨ht, hlast, rfl⟩, hrest⟩
        obtain ⟨hts, hchain, rfl⟩ := (ih (b.push part) (by simpa using hname)).1 hrest
        exact ⟨⟨ht, hts⟩, hhead.2 ⟨hlast, by simpa using hchain⟩, by simp [push]⟩
      · rintro ⟨⟨ht, hts⟩, hchain, rfl⟩
        obtain ⟨hlast, hchain⟩ := hhead.1 hchain
        refine ⟨b.push part, ⟨ht, hlast, rfl⟩, ?_⟩
        apply (ih (b.push part) (by simpa using hname)).2
        exact ⟨hts, by simpa using hchain, by simp [push]⟩

end Builder

end FlowArtifact.Location
