import FlowArtifact.Proofs.Storage
import FlowArtifact.Script

/-!
# Making directories

A storage is extended when directories were made where nothing was.  Every path
that led to an entry leads to it still, so no file is lost or changed, whichever
of the directories on the way to a place were missing.
-/

namespace FlowArtifact

namespace Storage

/-- Directories were made where nothing was, and all else is as before. -/
structure Extends (s s' : Storage) : Prop where
  home : s'.home = s.home
  kept : ∀ address e, s.entry? address = some e → s'.entry? address = some e
  made : ∀ address, s.entry? address = none →
    s'.entry? address = none ∨ s'.entry? address = some .directory

namespace Extends

variable {s s' s'' : Storage}

theorem refl (s : Storage) : s.Extends s := ⟨rfl, fun _ _ h => h, fun _ h => .inl h⟩

theorem trans (h : s.Extends s') (h' : s'.Extends s'') : s.Extends s'' where
  home := h'.home.trans h.home
  kept address e he := h'.kept address e (h.kept address e he)
  made address hnone := by
    rcases h.made address hnone with hnone' | hdirectory
    · exact h'.made address hnone'
    · exact .inr (h'.kept address _ hdirectory)

theorem entry?_eq_none (h : s.Extends s') {address : Address}
    (hnone : s'.entry? address = none) : s.entry? address = none := by
  cases he : s.entry? address with
  | none => rfl
  | some e => rw [h.kept address e he] at hnone; cases hnone

theorem file?_eq (h : s.Extends s') (address : Address) : s'.file? address = s.file? address := by
  unfold file?
  cases he : s.entry? address with
  | some e => rw [h.kept address e he]
  | none =>
      rcases h.made address he with hnone | hdirectory
      · rw [hnone]
      · rw [hdirectory]

theorem walk_eq (h : s.Extends s') {closed : Bool} {address : Address} {names : List String}
    {target : Target} (hwalk : s.walk closed address names = .ok target)
    (hentry : target.entry ≠ none) : s'.walk closed address names = .ok target := by
  induction names generalizing address with
  | nil => exact hwalk
  | cons name names ih =>
      rw [walk] at hwalk ⊢
      split_ifs at hwalk ⊢ with hdot hback hlong
      · exact ih hwalk
      · exact ih hwalk
      · dsimp only at hwalk ⊢
        cases hnext : s.entry? (address ++ [name]) with
        | none =>
            rw [hnext] at hwalk
            cases names with
            | nil =>
                obtain rfl := Except.ok.inj hwalk
                exact absurd rfl hentry
            | cons _ _ => cases hwalk
        | some e =>
            rw [hnext] at hwalk
            rw [h.kept _ _ hnext]
            cases e with
            | directory => exact ih hwalk
            | file text => cases names <;> exact hwalk

theorem resolve_eq (h : s.Extends s') {path : String} {target : Target}
    (hresolve : s.resolve path = .ok target) (hentry : target.entry ≠ none) :
    s'.resolve path = .ok target := by
  rw [resolve] at hresolve ⊢
  split_ifs at hresolve ⊢ with hempty hlong
  rw [h.home]
  exact h.walk_eq hresolve hentry

end Extends

variable {s s' : Storage}

theorem extends_put_directory {address : Address} (hnone : s.entry? address = none) :
    s.Extends (s.put address .directory) := by
  have hroot : address ≠ [] := by
    rintro rfl
    cases hnone
  have hput (other : Address) := entry?_put hroot s .directory other
  refine ⟨rfl, fun other e he => ?_, fun other he => ?_⟩
  · have hne : other ≠ address := by
      rintro rfl
      rw [hnone] at he
      cases he
    rw [hput, if_neg hne, he]
  · rw [hput]
    split_ifs
    · exact .inr rfl
    · exact .inl he

theorem extends_makeDirectory {path : String} (h : s.makeDirectory path = .ok s') :
    s.Extends s' := by
  obtain ⟨target, hresolve, hmade⟩ := bind_eq_ok_iff.1 h
  cases hentry : target.entry with
  | some e => rw [hentry] at hmade; cases hmade
  | none =>
      rw [hentry] at hmade
      obtain rfl := Except.ok.inj hmade
      apply extends_put_directory
      rw [← (entry_of_resolve hresolve (by simp [hentry])).1, hentry]

theorem extends_answer (s : Storage) (path : String) :
    s.Extends (s.answer (.makeDirectory path)).2 := by
  rw [answer]
  cases h : s.makeDirectory path with
  | ok s' => exact extends_makeDirectory h
  | error e => exact .refl s

end Storage

namespace Script

theorem extends_needDirectory (path : String) (s : Storage) :
    s.Extends ((needDirectory path).run s).2 := by
  rw [needDirectory, run_bind, run_request]
  refine (s.extends_answer path).trans ?_
  generalize (s.answer (.makeDirectory path)).2 = s'
  cases (s.answer (.makeDirectory path)).1 with
  | ok _ => exact .refl s'
  | error e =>
      dsimp only
      rw [run_bind, run_request]
      split_ifs <;> exact .refl s'

theorem extends_needDirectories (path : String) (holders : List String) (s : Storage) :
    s.Extends ((needDirectories path holders).run s).2 := by
  induction holders generalizing path s with
  | nil => exact extends_needDirectory path s
  | cons holder holders ih =>
      rw [needDirectories, run_bind, run_request]
      refine (s.extends_answer path).trans ?_
      generalize (s.answer (.makeDirectory path)).2 = s'
      split
      · -- The directories before are made first, and after them the one that is wanted.
        rw [run_bind]
        refine (ih holder s').trans ?_
        split
        · exact extends_needDirectory path _
        · exact .refl _
      · exact .refl s'
      · rw [run_bind, run_request]
        split_ifs <;> exact .refl s'

/-- Making directories extends the storage, also if it fails halfway. -/
theorem extends_makeDirectories (path : String) (s : Storage) :
    s.Extends ((makeDirectories path).run s).2 := by
  unfold makeDirectories
  split_ifs
  · exact .refl s
  · exact extends_needDirectories path _ s

end Script

end FlowArtifact
