import FlowArtifact.Json.Printer
import FlowArtifact.Text.Split
import FlowArtifact.Yaml.Wording

/-!
# Text formats

Artifacts are written as JSON or as YAML. A format is known by its name and by the extension of a
file.
-/

namespace FlowArtifact

inductive Format where
  | json
  | yaml
deriving DecidableEq

namespace Format

def extension : Format → String
  | json => "json"
  | yaml => "yaml"

def wording : Format → Wording
  | json => Json.wording
  | yaml => Yaml.wording

def lower (s : String) : String := String.ofList (s.toList.map Char.toLower)

/-- The format of a name, in small or capital letters. -/
def ofName (name : String) : Except String Format :=
  let name := lower name
  if name = "json" then .ok .json
  else if name = "yaml" ∨ name = "yml" then .ok .yaml
  else .error s!"unknown artifact format '{name}'"

/-- The last part of a path, without the empty parts and the `.` that mean nothing. -/
def fileName? (path : String) : Option String :=
  let (first, others) := Text.split '/' path
  match (others.filter fun part => part ≠ "" ∧ part ≠ ".").getLast? with
  | some ".." => none
  | some part => some part
  | none => if first = "" ∨ first = "." ∨ first = ".." then none else some first

/-- What follows the last point of a file name, unless nothing stands before that point. -/
def extension? (path : String) : Option String := do
  let name ← fileName? path
  let (first, others) := Text.split '.' name
  match others.getLast? with
  | none => none
  | some last => if first = "" ∧ others.length = 1 then none else some last

def ofPath? (path : String) : Option Format := do
  (ofName (← extension? path)).toOption

end Format

end FlowArtifact
