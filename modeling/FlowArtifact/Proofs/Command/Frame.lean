import FlowArtifact.Proofs.Command
import FlowArtifact.Proofs.Script

/-!
# What commands change

A command asks for one write at most, as the last thing it does.  Checks and lookups
leave the storage as it was.  A conversion changes the file it was told to write and
nothing else, and only if it succeeds.  The making of a sample leaves every file as it
was and adds one, where nothing was before.
-/

namespace FlowArtifact

namespace Storage

def LeadsTo (s : Storage) (path : String) (address : Address) : Prop :=
  ∃ target, s.resolve path = .ok target ∧ target.address = address

variable {s s' : Storage} {path text : String} {address : Address}

theorem LeadsTo.exists_entry (h : s.LeadsTo path address) (hentry : s.entry? address ≠ none) :
    ∃ target, s.resolve path = .ok target ∧ target.address = address ∧ target.entry ≠ none := by
  obtain ⟨target, hresolve, rfl⟩ := h
  refine ⟨target, hresolve, rfl, fun hnone => hentry ?_⟩
  rw [← (entry_of_resolve hresolve (by simp [hnone])).1, hnone]

theorem LeadsTo.extends (h : s.LeadsTo path address) (hentry : s.entry? address ≠ none)
    (hextends : s.Extends s') : s'.LeadsTo path address := by
  obtain ⟨target, hresolve, haddress, hsome⟩ := h.exists_entry hentry
  exact ⟨target, hextends.resolve_eq hresolve hsome, haddress⟩

theorem LeadsTo.entry?_eq_none (h : s.LeadsTo path address)
    (hpresent : s.isPresent path = .ok false) : s.entry? address = none := by
  by_contra hentry
  obtain ⟨⟨place, entry, closed⟩, hresolve, -, hsome⟩ := h.exists_entry hentry
  rw [isPresent, hresolve] at hpresent
  cases entry with
  | none => exact hsome rfl
  | some e => cases e <;> cases closed <;> cases hpresent

theorem entry?_ne_of_file?_ne (h : s'.file? address ≠ s.file? address) :
    s'.entry? address ≠ s.entry? address := by
  intro hentry
  rw [file?, hentry] at h
  exact h rfl

/-- Writing changes only what its path leads to, before and after. -/
theorem leadsTo_of_write (h : s.write path text = .ok s')
    (hchanged : s'.entry? address ≠ s.entry? address) :
    s.LeadsTo path address ∧ s'.LeadsTo path address := by
  obtain ⟨target, hresolve, -, hfile, rfl⟩ := write_eq_ok_iff.1 h
  have hroot := (entry_of_resolve hresolve hfile).2
  rw [entry?_put hroot] at hchanged
  have haddress : target.address = address := by
    by_contra hne
    rw [if_neg (Ne.symm hne)] at hchanged
    exact hchanged rfl
  exact ⟨⟨target, hresolve, haddress⟩, ⟨_, resolve_put hresolve hfile text, haddress⟩⟩

/-- A file that is written where nothing was leaves the others as they were. -/
theorem file?_of_write (h : s.write path text = .ok s') (hpresent : s.isPresent path = .ok false)
    {kept : String} (hfile : s.file? address = some kept) : s'.file? address = some kept := by
  rw [← hfile]
  by_contra hchanged
  have hleads := (leadsTo_of_write h (entry?_ne_of_file?_ne hchanged)).1
  rw [file?, hleads.entry?_eq_none hpresent] at hfile
  cases hfile

end Storage

namespace Command

namespace Task
variable {α β : Type}

def Ends (t : Task α) (s : Storage) (post : Except Report α → Storage → Prop) : Prop :=
  post (t.on s).1 (t.on s).2

variable {t : Task α} {f : α → Task β} {s : Storage}

theorem ends_bind {post : Except Report β → Storage → Prop}
    (h : t.Ends s fun r s' =>
      match r with
      | .ok a => (f a).Ends s' post
      | .error e => post (.error e) s') :
    (t >>= f).Ends s post := by
  unfold Ends at h ⊢
  rw [on_bind]
  generalize t.on s = e at h ⊢
  obtain ⟨_ | a, s'⟩ := e <;> exact h

theorem on_lift (x : Script α) (s : Storage) :
    Task.on (ExceptT.lift x) s = (.ok (x.run s).1, (x.run s).2) := by
  change (Script.bind x fun a => Script.done (Except.ok a)).run s = _
  exact Script.run_bind x _ s

theorem on_require {ε : Type} (message : ε → String) (x : Except ε α) (s : Storage) :
    (require message x).on s = (x.mapError fun e => { message := message e }, s) := by
  cases x <;> rfl

end Task

theorem on_nameOfDirectory (path : String) (s : Storage) :
    ∃ r, (nameOfDirectory path).on s = (r, s) := by
  rw [nameOfDirectory, Task.on_bind, Task.on_ask]
  simp only [Storage.answer, Task.on_bind, Task.on_require]
  cases s.nameOf path with
  | error e => exact ⟨_, rfl⟩
  | ok name => cases name <;> exact ⟨_, rfl⟩

/-- A file is written where nothing was, or the storage stays as it is. -/
theorem ends_writeSampleTo (path name : String) (format : Format) (s : Storage) :
    (writeSampleTo path format name).Ends s fun r s' =>
      match r with
      | .error _ => s' = s
      | .ok _ => s.isPresent path = .ok false ∧ ∃ text, s.write path text = .ok s' := by
  rw [writeSampleTo]
  apply Task.ends_bind
  rw [Task.Ends, Task.on_ask]
  apply Task.ends_bind
  rw [Task.Ends, Task.on_require, Storage.answer]
  cases hpresent : s.isPresent path with
  | error e => rfl
  | ok present =>
      cases present with
      | true => rfl
      | false =>
          apply Task.ends_bind
          rw [Task.Ends, Task.on_require]
          cases Sample.artifact name with
          | error e => rfl
          | ok a =>
              apply Task.ends_bind
              rw [Task.Ends, on_save]
              cases hwrite : s.write path (a.serialize format true) with
              | error e => rfl
              | ok s' => exact ⟨rfl, _, hwrite⟩

/-- The making of a sample makes directories and, if it succeeds, one file where nothing was. -/
theorem ends_writeSample (path : String) (name : Option String) (format : Format) (s : Storage) :
    (writeSample path name format).Ends s fun r s' => ∃ made, s.Extends made ∧
      match r with
      | .error _ => s' = made
      | .ok _ => made.isPresent (inside path s!"artifact.{format.extension}") = .ok false ∧
          ∃ text, made.write (inside path s!"artifact.{format.extension}") text = .ok s' := by
  rw [writeSample]
  apply Task.ends_bind
  rw [Task.Ends, Task.on_lift]
  have hmade := Script.extends_makeDirectories path s
  generalize ((Script.makeDirectories path).run s).2 = made at hmade ⊢
  apply Task.ends_bind
  rw [Task.Ends, Task.on_because]
  cases ((Script.makeDirectories path).run s).1 with
  | error e => exact ⟨made, hmade, rfl⟩
  | ok _ =>
      cases name with
      | some name => exact ⟨made, hmade, ends_writeSampleTo _ name format made⟩
      | none =>
          obtain ⟨r, hr⟩ := on_nameOfDirectory path made
          apply Task.ends_bind
          rw [Task.Ends, hr]
          cases r with
          | error e => exact ⟨made, hmade, rfl⟩
          | ok name => exact ⟨made, hmade, ends_writeSampleTo _ name format made⟩

/-! ## Commands that load an artifact -/

variable {file : String} {s : Storage}

/-- Behind the loading of an artifact the storage is as it was. -/
theorem ends_bind_load {α : Type} {f : Artifact → Task α} {post : Except Report α → Storage → Prop}
    (hok : ∀ a, Holds s file a → (f a).Ends s post) (herror : ∀ e, post (.error e) s) :
    (load file >>= f).Ends s post := by
  obtain ⟨r, hload, hholds⟩ := on_load s file
  apply Task.ends_bind
  rw [Task.Ends, hload]
  cases r with
  | ok a => exact hok a ((hholds a).1 rfl)
  | error e => exact herror e

theorem ends_validate (file : String) (s : Storage) :
    (task (.validate file)).Ends s fun _ s' => s' = s :=
  ends_bind_load (fun _ _ => rfl) fun _ => rfl

theorem ends_locate (file location : String) (s : Storage) :
    (task (.locate file location)).Ends s fun _ s' => s' = s := by
  rw [task, showDeclaration]
  apply Task.ends_bind
  rw [Task.Ends, Task.on_because]
  cases Location.parse location with
  | error e => rfl
  | ok l =>
      apply ends_bind_load
      · intro a _
        cases a.find? l <;> rfl
      · exact fun _ => rfl

theorem ends_list (file : String) (s : Storage) :
    (task (.list file)).Ends s fun _ s' => s' = s := by
  rw [task, showLocations]
  apply ends_bind_load
  · intro a _
    apply Task.ends_bind
    rw [Task.Ends, Task.on_require]
    cases a.locations <;> rfl
  · exact fun _ => rfl

/-- A conversion that succeeds has loaded an artifact, and writes at most the file it is given. -/
theorem ends_writeAgain (file : String) (format : Option Format) (compact : Bool)
    (output : Option String) (s : Storage) :
    (writeAgain file format compact output).Ends s fun r s' =>
      match r with
      | .error _ => s' = s
      | .ok _ => (∃ a, Holds s file a) ∧
          (s' = s ∨ ∃ out text, output = some out ∧ s.write out text = .ok s') := by
  rw [writeAgain]
  apply ends_bind_load
  · intro a ha
    cases output with
    | none => exact ⟨⟨a, ha⟩, .inl rfl⟩
    | some out =>
        apply Task.ends_bind
        rw [Task.Ends, on_save]
        cases hwrite : s.write out (a.serialize (targetFormat format (some out)) !compact) with
        | error e => rfl
        | ok s' => exact ⟨⟨a, ha⟩, .inr ⟨out, _, rfl, hwrite⟩⟩
  · exact fun _ => rfl

/-! ## Whole runs -/

/-- What a conversion with an exit code leaves: at most the file that its output leads to is
changed, and nothing if the conversion failed or its input holds no artifact. -/
structure Converted (file : String) (output : Option String) (s : Storage) (code : Nat)
    (s' : Storage) : Prop where
  confined : ∀ address, s'.entry? address ≠ s.entry? address →
    code = 0 ∧ ∃ out, output = some out ∧ s.LeadsTo out address
  failed : code ≠ 0 → s' = s
  refused : (∀ a, ¬Holds s file a) → code = 1 ∧ s' = s

/-- What the making of a sample leaves: all files are kept and at most one is new, at the place of
the sample; if something was there before, the making failed. -/
structure Sampled (path : String) (s : Storage) (code : Nat) (s' : Storage) : Prop where
  kept : ∀ address text, s.file? address = some text → s'.file? address = some text
  confined : ∀ address, s'.file? address ≠ s.file? address → code = 0 ∧ s'.LeadsTo path address
  refused : ∀ address, s.LeadsTo path address → s.entry? address ≠ none → code = 1

theorem ends_convert (file : String) (format : Option Format) (compact : Bool)
    (output : Option String) (s : Storage) :
    (task (.convert file format compact output)).Ends s fun r s' =>
      Converted file output s (Outcome.of r).code s' := by
  have hends := ends_writeAgain file format compact output s
  unfold Task.Ends at hends ⊢
  rw [task]
  generalize (writeAgain file format compact output).on s = e at hends ⊢
  obtain ⟨_ | shown, s'⟩ := e
  · obtain rfl := hends
    exact ⟨fun _ hchanged => absurd rfl hchanged, fun _ => rfl, fun _ => ⟨rfl, rfl⟩⟩
  · obtain ⟨⟨a, ha⟩, hwritten⟩ := hends
    refine ⟨fun address hchanged => ⟨rfl, ?_⟩, fun hcode => absurd rfl hcode,
      fun hnone => absurd ha (hnone a)⟩
    obtain rfl | ⟨out, text, rfl, hwrite⟩ := hwritten
    · exact absurd rfl hchanged
    · exact ⟨out, rfl, (Storage.leadsTo_of_write hwrite hchanged).1⟩

theorem ends_init (path : String) (name : Option String) (format : Format) (s : Storage) :
    (task (.init path name format)).Ends s fun r s' =>
      Sampled (inside path s!"artifact.{format.extension}") s (Outcome.of r).code s' := by
  have hends := ends_writeSample path name format s
  unfold Task.Ends at hends ⊢
  rw [task]
  generalize (writeSample path name format).on s = e at hends ⊢
  obtain ⟨_ | shown, s'⟩ := e
  · obtain ⟨made, hmade, rfl⟩ := hends
    refine ⟨fun address text hfile => ?_, fun address hchanged => ?_, fun _ _ _ => rfl⟩
    · rw [hmade.file?_eq, hfile]
    · exact absurd (hmade.file?_eq address) hchanged
  · obtain ⟨made, hmade, hpresent, text, hwrite⟩ := hends
    refine ⟨fun address kept hfile => ?_, fun address hchanged => ⟨rfl, ?_⟩,
      fun address hleads hentry => ?_⟩
    · rw [← hmade.file?_eq] at hfile
      exact Storage.file?_of_write hwrite hpresent hfile
    · rw [← hmade.file?_eq] at hchanged
      exact (Storage.leadsTo_of_write hwrite (Storage.entry?_ne_of_file?_ne hchanged)).2
    · -- What was there is there still after the directories were made, so nothing is written.
      have hnone := (hleads.extends hentry hmade).entry?_eq_none hpresent
      exact absurd (hmade.entry?_eq_none hnone) hentry

/-- Arguments that name no command, checks and lookups change nothing.  A conversion changes at most
the file that its output names, and the making of a sample adds at most the file of the sample. -/
theorem run_perform_frame (args : List String) (s : Storage) :
    match ofArguments args with
    | .error _ | .ok (.validate _) | .ok (.locate _ _) | .ok (.list _) =>
        ((perform args).run s).2 = s
    | .ok (.convert file _ _ output) =>
        Converted file output s ((perform args).run s).1.code ((perform args).run s).2
    | .ok (.init path _ format) =>
        Sampled (inside path s!"artifact.{format.extension}") s
          ((perform args).run s).1.code ((perform args).run s).2 := by
  cases hargs : ofArguments args with
  | error halt =>
      rw [perform, hargs]
      cases halt <;> rfl
  | ok command =>
      rw [run_perform hargs]
      cases command with
      | validate file => exact ends_validate file s
      | locate file location =>
          dsimp only
          exact ends_locate file location s
      | list file => exact ends_list file s
      | convert file format compact output => exact ends_convert file format compact output s
      | init path name format => exact ends_init path name format s

end Command

end FlowArtifact
