import FlowArtifact.Command.Script
import FlowArtifact.Proofs.Serialization
import FlowArtifact.Proofs.Storage

/-!
# Commands on a storage

A task that is run on a storage gives a result or a report, and the storage after it.  Loading
changes nothing and finds the artifact that a file holds; a file that is saved holds what was
written.  So a converted file holds the artifact of the first one, and the check of either shows
the same.
-/

namespace FlowArtifact

namespace Command

namespace Task
variable {α β : Type}

def on (t : Task α) (s : Storage) : Except Report α × Storage := t.run.run s

@[simp] theorem on_pure (a : α) (s : Storage) : (pure a : Task α).on s = (.ok a, s) := rfl

@[simp] theorem on_throw (r : Report) (s : Storage) :
    (throw r : Task α).on s = (.error r, s) := rfl

theorem on_ask (r : Request) (s : Storage) :
    (ask r).on s = (.ok (s.answer r).1, (s.answer r).2) := rfl

/-- A task is followed by another one if it gives a result. -/
theorem on_bind (t : Task α) (f : α → Task β) (s : Storage) :
    (t >>= f).on s =
      match t.on s with
      | (.ok a, s) => (f a).on s
      | (.error r, s) => (.error r, s) := by
  rw [on, ExceptT.run_bind, Script.run_bind]
  change _ = match ((t.run.run s).1, (t.run.run s).2) with
    | (.ok a, s) => (f a).on s
    | (.error r, s) => (.error r, s)
  cases (t.run.run s).1 <;> rfl

theorem on_because {ε : Type} (message : ε → String) (what : String) (x : Except ε α)
    (s : Storage) :
    (because message what x).on s = (x.mapError fun e => ⟨what, some (message e)⟩, s) := by
  cases x <;> rfl

end Task

/-- The file of a storage is an artifact in the format of its name, and passes the checks. -/
def Holds (s : Storage) (file : String) (a : Artifact) : Prop :=
  ∃ format text, Format.ofPath? file = some format ∧ s.read file = .ok text ∧
    Artifact.deserialize format text = .ok a

variable {s s' : Storage} {file out : String} {a b : Artifact}

theorem Holds.unique (ha : Holds s file a) (hb : Holds s file b) : a = b := by
  obtain ⟨format, text, hformat, htext, ha⟩ := ha
  obtain ⟨format', text', hformat', htext', hb⟩ := hb
  obtain rfl := Option.some.inj (hformat.symm.trans hformat')
  obtain rfl := Except.ok.inj (htext.symm.trans htext')
  exact Except.ok.inj (ha.symm.trans hb)

theorem Holds.validate (h : Holds s file a) : a.validate = .ok () := by
  obtain ⟨format, text, -, -, ha⟩ := h
  exact Artifact.validate_of_deserialize ha

/-- Loading leaves the storage as it is and gives what the file holds. -/
theorem on_load (s : Storage) (file : String) :
    ∃ r, (load file).on s = (r, s) ∧ ∀ a, r = .ok a ↔ Holds s file a := by
  rw [load]
  cases hformat : Format.ofPath? file with
  | none => exact ⟨_, rfl, fun a => by simp [Holds, hformat]⟩
  | some format =>
      dsimp only
      rw [Task.on_bind, Task.on_ask]
      simp only [Storage.answer, Task.on_bind, Task.on_because]
      cases htext : s.read file with
      | error e => exact ⟨.error _, rfl, fun a => by simp [Holds, htext]⟩
      | ok text =>
          refine ⟨_, rfl, fun a => ?_⟩
          rw [mapError_eq_ok_iff]
          simp [Holds, hformat, htext]

theorem on_save (s : Storage) (file text : String) :
    (save file text).on s =
      match s.write file text with
      | .ok s' => (.ok (), s')
      | .error e => (.error ⟨s!"Failed to write '{file}'", some e.message⟩, s) := by
  rw [save, Task.on_bind, Task.on_ask]
  simp only [Storage.answer, Task.on_because]
  cases s.write file text <;> rfl

def Outcome.of : Except Report String → Outcome
  | .ok output => { code := 0, output }
  | .error report => { code := 1, report := some report }

theorem run_perform {args : List String} {c : Command} (hargs : ofArguments args = .ok c)
    (s : Storage) : (perform args).run s = (Outcome.of (c.task.on s).1, (c.task.on s).2) := by
  rw [perform, hargs]
  simp only [Script.run_bind]
  change _ = (Outcome.of (c.task.run.run s).1, (c.task.run.run s).2)
  cases (c.task.run.run s).1 <;> rfl

/-! ## Checking and converting -/

section
variable {args : List String}

/-- What a check shows: the name, the count of the global elements and the fingerprint, each on a
line of its own. -/
theorem summary_eq (a : Artifact) : summary a =
    "Artifact: " ++ a.attributes.name ++ "\n" ++
      ("Global elements: " ++ toString a.globalElements.length ++ "\n") ++
      ("Fingerprint: " ++ a.fingerprint ++ "\n") := rfl

/-- A check shows the artifact that the file holds, and changes nothing. -/
theorem run_validate (hargs : ofArguments args = .ok (.validate file)) (h : Holds s file a) :
    (perform args).run s = ({ code := 0, output := summary a }, s) := by
  obtain ⟨r, hload, hholds⟩ := on_load s file
  rw [(hholds a).2 h] at hload
  rw [run_perform hargs, task, Task.on_bind, hload]
  rfl

/-- A check ends with code 0 only if the file holds an artifact. -/
theorem exists_holds_of_validate (hargs : ofArguments args = .ok (.validate file))
    (hcode : ((perform args).run s).1.code = 0) : ∃ a, Holds s file a := by
  obtain ⟨r, hload, hholds⟩ := on_load s file
  rw [run_perform hargs, task, Task.on_bind, hload] at hcode
  cases r with
  | ok a => exact ⟨a, (hholds a).1 rfl⟩
  | error report => cases hcode

/-- A conversion that ends with code 0 has written what the file holds. -/
theorem write_of_convert {format : Option Format} {compact : Bool}
    (hargs : ofArguments args = .ok (.convert file format compact (some out)))
    (hcode : ((perform args).run s).1.code = 0) :
    ∃ a, Holds s file a ∧
      s.write out (a.serialize (targetFormat format (some out)) !compact) =
        .ok ((perform args).run s).2 := by
  obtain ⟨r, hload, hholds⟩ := on_load s file
  rw [run_perform hargs, task, writeAgain, Task.on_bind, hload] at hcode ⊢
  cases r with
  | error report => cases hcode
  | ok a =>
      refine ⟨a, (hholds a).1 rfl, ?_⟩
      dsimp only at hcode ⊢
      rw [Task.on_bind, on_save] at hcode ⊢
      cases hwrite : s.write out (a.serialize (targetFormat format (some out)) !compact) with
      | ok s' => rfl
      | error e =>
          rw [hwrite] at hcode
          cases hcode

/-- A conversion of an artifact that can be written ends with code 0. -/
theorem run_convert {format : Option Format} {compact : Bool}
    (hargs : ofArguments args = .ok (.convert file format compact (some out)))
    (h : Holds s file a)
    (hwrite : s.write out (a.serialize (targetFormat format (some out)) !compact) = .ok s') :
    (perform args).run s = ({ code := 0 }, s') := by
  obtain ⟨r, hload, hholds⟩ := on_load s file
  rw [(hholds a).2 h] at hload
  rw [run_perform hargs, task, writeAgain, Task.on_bind, hload]
  dsimp only
  rw [Task.on_bind, on_save, hwrite]
  rfl

theorem targetFormat_of_ofPath? {target : Format} {format : Option Format}
    (htarget : Format.ofPath? out = some target) (hformat : ∀ f, format = some f → f = target) :
    targetFormat format (some out) = target := by
  cases format with
  | none => simp [targetFormat, htarget]
  | some f => simp [targetFormat, hformat f rfl]

end

/-- The conversion of a file that passes the check writes a file that passes it, and the check of
either shows the same name, count of elements and fingerprint.  The metadata holds no doubles, and
YAML is relied on to restore the document that is written. -/
theorem run_validate_converted {checks converts checksAgain : List String}
    {format : Option Format} {compact : Bool} {target : Format}
    (hchecks : ofArguments checks = .ok (.validate file))
    (hconverts : ofArguments converts = .ok (.convert file format compact (some out)))
    (hchecksAgain : ofArguments checksAgain = .ok (.validate out))
    (htarget : Format.ofPath? out = some target) (hformat : ∀ f, format = some f → f = target)
    (hmetadata : ∀ a, Holds s file a → ∀ attributes ∈ a.allAttributes,
      ∀ e ∈ attributes.metadata.entries, e.2.isExact = true)
    (hyaml : target = .yaml → ∀ a, Holds s file a →
      Format.yaml.Restores some (!compact) a.toDoc)
    (hchecked : ((perform checks).run s).1.code = 0)
    (hconverted : ((perform converts).run s).1.code = 0) :
    ∃ a output, Holds s file a ∧ Holds ((perform converts).run s).2 out a ∧
      output = "Artifact: " ++ a.attributes.name ++ "\n" ++
        ("Global elements: " ++ toString a.globalElements.length ++ "\n") ++
        ("Fingerprint: " ++ a.fingerprint ++ "\n") ∧
      (perform checks).run s = ({ code := 0, output }, s) ∧
      (perform checksAgain).run ((perform converts).run s).2 =
        ({ code := 0, output }, ((perform converts).run s).2) := by
  obtain ⟨a, hholds⟩ := exists_holds_of_validate hchecks hchecked
  obtain ⟨b, hb, hwrite⟩ := write_of_convert hconverts hconverted
  obtain rfl := hholds.unique hb
  rw [targetFormat_of_ofPath? htarget hformat] at hwrite
  have hvalid : a.validate = .ok () := hholds.validate
  have hroom := Artifact.elementNesting_add_two_le_maxNesting target
  have hagain : Artifact.deserialize target (a.serialize target !compact) = .ok a := by
    cases target with
    | json =>
        exact Artifact.deserialize_serialize (Artifact.restores_json a _)
          (fun _ hs => Artifact.restored?_of_isExact hs) hvalid hroom (hmetadata a hholds)
    | yaml =>
        exact Artifact.deserialize_serialize (hyaml rfl a hholds) (fun _ _ => rfl) hvalid hroom
          (hmetadata a hholds)
  have hwritten : Holds ((perform converts).run s).2 out a :=
    ⟨target, _, htarget, Storage.read_write hwrite, hagain⟩
  exact ⟨a, summary a, hholds, hwritten, summary_eq a, run_validate hchecks hholds,
    run_validate hchecksAgain hwritten⟩

def specimenStorage : Storage :=
  .ofFiles ["work"] [(["app.json"], Artifact.specimen.serialize .json true)]

theorem holds_specimenStorage : Holds specimenStorage "app.json" Artifact.specimen := by
  refine ⟨.json, _, rfl, rfl, ?_⟩
  exact Artifact.deserialize_serialize (Artifact.restores_json _ _)
    (fun _ hs => Artifact.restored?_of_isExact hs) (by decide +kernel) (by decide)
    (by decide +kernel)

theorem run_validate_converted_of_specimen :
    ∃ output, output = "Artifact: orders\nGlobal elements: 3\nFingerprint: " ++
        Artifact.specimen.fingerprint ++ "\n" ∧
      (perform ["validate", "app.json"]).run specimenStorage =
        ({ code := 0, output }, specimenStorage) ∧
      (∃ s', (perform ["convert", "app.json", "--compact", "-t", "json", "-o", "./out.json"]).run
          specimenStorage = ({ code := 0 }, s') ∧
        (perform ["validate", "./out.json"]).run s' = ({ code := 0, output }, s')) ∧
      ∃ s', (perform ["convert", "app.json", "--output=app.yaml"]).run specimenStorage =
          ({ code := 0 }, s') ∧
        (perform ["validate", "app.yaml"]).run s' = ({ code := 0, output }, s') := by
  have hchecks : ofArguments ["validate", "app.json"] = .ok (.validate "app.json") := by
    decide +kernel
  have hchecked := run_validate hchecks holds_specimenStorage
  have hmetadata : ∀ a, Holds specimenStorage "app.json" a → ∀ attributes ∈ a.allAttributes,
      ∀ e ∈ attributes.metadata.entries, e.2.isExact = true :=
    fun a ha => ha.unique holds_specimenStorage ▸ by decide +kernel
  have hjson : ofArguments ["convert", "app.json", "--compact", "-t", "json", "-o",
      "./out.json"] = .ok (.convert "app.json" (some .json) true (some "./out.json")) := by
    decide +kernel
  have hchecksJson : ofArguments ["validate", "./out.json"] = .ok (.validate "./out.json") := by
    decide +kernel
  have hwritten := run_convert hjson holds_specimenStorage rfl
  obtain ⟨a, output, ha, -, houtput, hcheck, hagain⟩ := run_validate_converted hchecks hjson
    hchecksJson rfl (by simp) hmetadata (by simp) (by rw [hchecked]) (by rw [hwritten])
  obtain rfl := ha.unique holds_specimenStorage
  rw [hwritten] at hagain
  have hyaml : ofArguments ["convert", "app.json", "--output=app.yaml"] =
      .ok (.convert "app.json" none false (some "app.yaml")) := by
    decide +kernel
  have hchecksYaml : ofArguments ["validate", "app.yaml"] = .ok (.validate "app.yaml") := by
    decide +kernel
  have hwrittenYaml := run_convert hyaml holds_specimenStorage rfl
  obtain ⟨b, output', hb, -, houtput', -, hagainYaml⟩ := run_validate_converted hchecks hyaml
    hchecksYaml rfl (by simp) hmetadata
    (fun _ a ha => ha.unique holds_specimenStorage ▸ Artifact.restores_yaml_specimen)
    (by rw [hchecked]) (by rw [hwrittenYaml])
  obtain rfl := hb.unique holds_specimenStorage
  obtain rfl : output = output' := houtput.trans houtput'.symm
  rw [hwrittenYaml] at hagainYaml
  exact ⟨output, houtput, hcheck, ⟨_, hwritten, hagain⟩, _, hwrittenYaml, hagainYaml⟩

end Command

end FlowArtifact
