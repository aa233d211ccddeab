import FlowArtifact.Command
import FlowArtifact.Command.Report
import FlowArtifact.Command.Sample
import FlowArtifact.Declaration.Node
import FlowArtifact.Location.Builder
import FlowArtifact.Script
import FlowArtifact.Serialization

/-!
# What commands do

Each command is a script that ends with the text it shows or with a report. Only `init` and
`convert` write, and they write one file, as the last thing they do.
-/

namespace FlowArtifact

namespace Command

abbrev Task (α : Type) := ExceptT Report Script α

namespace Task
variable {α : Type}

/-- Fails with the message of an error as the cause of a report. -/
def because {ε : Type} (message : ε → String) (what : String) : Except ε α → Task α
  | .ok a => pure a
  | .error e => throw ⟨what, some (message e)⟩

/-- Fails with the message of an error as a report. -/
def require {ε : Type} (message : ε → String) : Except ε α → Task α
  | .ok a => pure a
  | .error e => throw { message := message e }

def ask (r : Request) : Task r.Answer := ExceptT.lift (Script.request r)

end Task

/-- Reads and checks an artifact, in the format of the name of its file. -/
def load (file : String) : Task Artifact := do
  match Format.ofPath? file with
  | none =>
    throw { message := s!"Cannot tell the format of '{file}' (expected .json, .yaml or .yml)" }
  | some format =>
    let text ← Task.because Trouble.message s!"Failed to read '{file}'" (← Task.ask (.read file))
    Task.because Error.message s!"Invalid artifact '{file}'" (Artifact.deserialize format text)

def save (file text : String) : Task Unit := do
  Task.because Trouble.message s!"Failed to write '{file}'" (← Task.ask (.write file text))

def inside (directory name : String) : String :=
  if directory = "" ∨ directory.toList.getLast? = some '/' then directory ++ name
  else directory ++ "/" ++ name

def nameOfDirectory (path : String) : Task String := do
  match ← Task.require Trouble.message (← Task.ask (.nameOf path)) with
  | some name => pure name
  | none => throw { message := "Could not determine artifact name from path" }

def writeSampleTo (target : String) (format : Format) (name : String) : Task String := do
  if ← Task.require Trouble.message (← Task.ask (.isPresent target)) then
    throw { message := s!"'{target}' already exists" }
  let artifact ← Task.require Error.message (Sample.artifact name)
  save target (artifact.serialize format true)
  pure <| "\nNext steps:\n" ++ s!"  {program} validate {target}\n" ++
    s!"  {program} locate {target} bridge/processors/1/processors/1\n"

/-- Makes a directory and writes a sample artifact into it, unless it holds one. -/
def writeSample (path : String) (name : Option String) (format : Format) : Task String := do
  let made ← ExceptT.lift (Script.makeDirectories path)
  Task.because Trouble.message s!"Failed to create '{path}'" made
  let name ← match name with
    | some name => pure name
    | none => nameOfDirectory path
  writeSampleTo (inside path s!"artifact.{format.extension}") format name

def summary (a : Artifact) : String :=
  s!"Artifact: {a.attributes.name}\n" ++ s!"Global elements: {a.globalElements.length}\n" ++
    s!"Fingerprint: {a.fingerprint}\n"

/-- Shows the declaration at a location. The location is read first. -/
def showDeclaration (file location : String) : Task String := do
  let l ← Task.because Location.Error.message s!"Invalid location '{location}'"
    (Location.parse location)
  let a ← load file
  match a.find? l with
  | some node => pure (Json.pretty node.declaration.toDoc ++ "\n")
  | none => throw { message := s!"Nothing declared at '{l.text}' in '{file}'" }

def showLocations (file : String) : Task String := do
  let a ← load file
  let locations ← Task.require Location.Error.message a.locations
  pure (String.join (locations.map fun (l, node) => s!"{l.text}\t{node.declaration.name}\n"))

/-- The format of a converted artifact: the one asked for, else that of the output, else JSON. -/
def targetFormat (format : Option Format) (output : Option String) : Format :=
  (format <|> output.bind Format.ofPath?).getD .json

def writeAgain (file : String) (format : Option Format) (compact : Bool) (output : Option String) :
    Task String := do
  let a ← load file
  let text := a.serialize (targetFormat format output) !compact
  match output with
  | some path =>
    save path text
    pure ""
  | none => pure (String.ofList (Text.trimEnd text.toList) ++ "\n")

def task : Command → Task String
  | init path name format => writeSample path name format
  | validate file => do pure (summary (← load file))
  | locate file location => showDeclaration file location
  | list file => showLocations file
  | convert file format compact output => writeAgain file format compact output

structure Outcome where
  code : Nat
  output : String := ""
  report : Option Report := none
deriving DecidableEq

def usage : String :=
  s!"Usage: {program} [-v] <init|validate|locate|convert> [ARGUMENTS]\n"

/-- Runs the command that arguments name. Arguments that name none are refused with code 2. -/
def perform (args : List String) : Script Outcome := do
  match ofArguments args with
  | .error .refused => pure { code := 2 }
  | .error .help => pure { code := 0, output := usage }
  | .error .version => pure { code := 0, output := s!"{program} {version}\n" }
  | .ok command =>
    match ← command.task.run with
    | .ok output => pure { code := 0, output }
    | .error report => pure { code := 1, report := some report }

end Command

end FlowArtifact
