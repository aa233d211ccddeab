import FlowArtifact.Command.Script

/-!
# The program

Carries out the script of a command on the files of the machine.
-/

namespace FlowArtifact

def Trouble.ofError : IO.Error → Trouble
  | .noFileOrDirectory .. => .notFound
  | .alreadyExists .. => .alreadyThere
  | e => .other e.toString

def attempt {α : Type} (action : IO α) : IO (Except Trouble α) :=
  tryCatch (Except.ok <$> action) fun e => pure (.error (.ofError e))

/-- Carries out a request. A path is that of a directory if it still leads somewhere with a
separator behind it. -/
def Request.perform : (r : Request) → IO r.Answer
  | .read path => attempt (IO.FS.readFile path)
  | .write path text => attempt (IO.FS.writeFile path text)
  | .makeDirectory path => attempt (IO.FS.createDir path)
  | .isDirectory path => do
    match ← attempt (IO.FS.realPath (path ++ "/")) with
    | .ok _ => pure true
    | .error _ => pure false
  | .isPresent path => do
    match ← attempt (IO.FS.realPath path) with
    | .ok _ => pure (.ok true)
    | .error .notFound => pure (.ok false)
    | .error e => pure (.error e)
  | .nameOf path => do
    match ← attempt (IO.FS.realPath path) with
    | .ok target =>
      let (first, others) := Text.split '/' (toString target)
      pure (.ok ((first :: others).getLast?.filter (· ≠ "")))
    | .error e => pure (.error e)

def Script.perform {α : Type} : Script α → IO α
  | .done a => pure a
  | .ask r next => do (next (← r.perform)).perform

end FlowArtifact

def main (args : List String) : IO UInt32 := do
  let outcome ← (FlowArtifact.Command.perform args).perform
  IO.print outcome.output
  match outcome.report with
  | some report => IO.eprintln report.text
  | none => pure ()
  pure (UInt32.ofNat outcome.code)
