import FlowArtifact.Proofs.Outcome
import FlowArtifact.Storage
import Mathlib.Tactic.SplitIfs

/-!
# What is stored can be read

A path leads through directories only.  A file that is written stands at the end of its path, so
the path leads the same way after the writing, and the text that was written is read.
-/

namespace FlowArtifact

namespace Storage

theorem lookup_filter_ne {address other : Address} (hne : other ≠ address)
    (entries : List (Address × Entry)) :
    (entries.filter (·.1 ≠ address)).lookup other = entries.lookup other := by
  induction entries with
  | nil => rfl
  | cons entry entries ih =>
      obtain ⟨place, e⟩ := entry
      by_cases hplace : place = address
      · have hother : (other == place) = false := by simp [hplace, hne]
        rw [List.filter_cons_of_neg (by simp [hplace]), ih, List.lookup_cons, hother]
      · rw [List.filter_cons_of_pos (by simpa using hplace), List.lookup_cons, List.lookup_cons, ih]

/-- The entry that was put is found, and all others stay. -/
theorem entry?_put {address : Address} (hroot : address ≠ []) (s : Storage) (e : Entry)
    (other : Address) :
    entry? (s.put address e) other = if other = address then some e else s.entry? other := by
  by_cases hother : other = address
  · rw [if_pos hother, hother, entry?, if_neg hroot, put, List.lookup_cons_self]
  · rw [if_neg hother, entry?, entry?, put, List.lookup_cons, beq_eq_false_iff_ne.2 hother,
      lookup_filter_ne hother]

section
variable {s : Storage} {closed : Bool} {address : Address} {names : List String} {target : Target}

/-- What stands at the end of a path is the entry of its address, and no file is the root. -/
theorem entry_of_walk (h : s.walk closed address names = .ok target)
    (hfile : target.entry ≠ some .directory) :
    target.entry = s.entry? target.address ∧ target.address ≠ [] := by
  induction names generalizing address with
  | nil =>
      simp only [walk, Except.ok.injEq] at h
      rw [← h] at hfile
      exact absurd rfl hfile
  | cons name names ih =>
      rw [walk] at h
      split_ifs at h with hdot hback hlong
      · exact ih h
      · exact ih h
      · dsimp only at h
        split at h
        · exact ih h
        · obtain rfl := Except.ok.inj h
          exact ⟨rfl, by simp⟩
        · cases h
        · cases h

/-- A path to a file or to nothing leads the same way after a file is put at its end. -/
theorem walk_put (h : s.walk closed address names = .ok target)
    (hfile : target.entry ≠ some .directory) (text : String) :
    (s.put target.address (.file text)).walk closed address names =
      .ok { target with entry := some (.file text) } := by
  obtain ⟨hentry, hroot⟩ := entry_of_walk h hfile
  have hput (other : Address) := entry?_put hroot s (.file text) other
  -- Only directories are passed on the way, so none of them is the place of the file.
  have hpassed {other : Address} (hother : s.entry? other = some .directory) :
      entry? (s.put target.address (.file text)) other = some .directory := by
    have hne : other ≠ target.address := by
      rintro rfl
      exact hfile (hentry.trans hother)
    rw [hput, if_neg hne, hother]
  clear hentry
  induction names generalizing address with
  | nil =>
      simp only [walk, Except.ok.injEq] at h
      rw [← h] at hfile
      exact absurd rfl hfile
  | cons name names ih =>
      rw [walk] at h ⊢
      split_ifs at h ⊢ with hdot hback hlong
      · exact ih h
      · exact ih h
      · dsimp only at h ⊢
        split at h
        · rename_i hdirectory
          rw [hpassed hdirectory]
          exact ih h
        · obtain rfl := Except.ok.inj h
          rw [hput, if_pos rfl]
        · cases h
        · cases h

end

variable {s s' : Storage} {path text : String}

theorem write_eq_ok_iff : s.write path text = .ok s' ↔
    ∃ target, s.resolve path = .ok target ∧ target.closed = false ∧
      target.entry ≠ some .directory ∧ s' = s.put target.address (.file text) := by
  rw [write, bind_eq_ok_iff]
  refine exists_congr fun target => and_congr_right fun _ => ?_
  split_ifs with hrefused
  · simp only [false_iff, not_and]
    intro hopen hfile
    rcases hrefused with hclosed | hdirectory
    · rw [hopen] at hclosed
      cases hclosed
    · exact absurd hdirectory hfile
  · obtain ⟨hopen, hfile⟩ := not_or.1 hrefused
    simp [hopen, hfile, eq_comm]

theorem entry_of_resolve {target : Target} (h : s.resolve path = .ok target)
    (hfile : target.entry ≠ some .directory) :
    target.entry = s.entry? target.address ∧ target.address ≠ [] := by
  rw [resolve] at h
  split_ifs at h
  exact entry_of_walk h hfile

theorem resolve_put {target : Target} (h : s.resolve path = .ok target)
    (hfile : target.entry ≠ some .directory) (text : String) :
    (s.put target.address (.file text)).resolve path =
      .ok { target with entry := some (.file text) } := by
  rw [resolve] at h ⊢
  split_ifs at h ⊢
  exact walk_put h hfile text

theorem read_write (h : s.write path text = .ok s') : s'.read path = .ok text := by
  obtain ⟨target, hresolve, hopen, hfile, rfl⟩ := write_eq_ok_iff.1 h
  rw [read, resolve_put hresolve hfile text, ok_bind, hopen]
  rfl

end Storage

end FlowArtifact
