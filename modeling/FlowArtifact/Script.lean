import FlowArtifact.Storage

/-!
# Scripts

A script is a computation that asks for access to stored files. It can be run on a storage, which
makes it a function, or carried out on the files of a machine.
-/

namespace FlowArtifact

inductive Request where
  | read (path : String)
  | write (path text : String)
  | makeDirectory (path : String)
  | isDirectory (path : String)
  | isPresent (path : String)
  | nameOf (path : String)

abbrev Request.Answer : Request → Type
  | read _ => Except Trouble String
  | write _ _ => Except Trouble Unit
  | makeDirectory _ => Except Trouble Unit
  | isDirectory _ => Bool
  | isPresent _ => Except Trouble Bool
  | nameOf _ => Except Trouble (Option String)

inductive Script (α : Type) where
  | done (a : α)
  | ask (request : Request) (next : request.Answer → Script α)

namespace Storage

/-- A change that is made, or not made if it is refused. -/
def change (s : Storage) : Except Trouble Storage → Except Trouble Unit × Storage
  | .ok s' => (.ok (), s')
  | .error e => (.error e, s)

def answer (s : Storage) : (r : Request) → r.Answer × Storage
  | .read path => (s.read path, s)
  | .write path text => s.change (s.write path text)
  | .makeDirectory path => s.change (s.makeDirectory path)
  | .isDirectory path => (s.isDirectory path, s)
  | .isPresent path => (s.isPresent path, s)
  | .nameOf path => (s.nameOf path, s)

end Storage

namespace Script
variable {α β : Type}

def bind : Script α → (α → Script β) → Script β
  | done a, f => f a
  | ask request next, f => ask request fun answer => (next answer).bind f

instance : Monad Script where
  pure := done
  bind := bind

def request (r : Request) : Script r.Answer := ask r done

def run : Script α → Storage → α × Storage
  | done a, s => (a, s)
  | ask r next, s =>
    let (answer, s) := s.answer r
    (next answer).run s

@[simp] theorem run_pure (a : α) (s : Storage) : (pure a : Script α).run s = (a, s) := rfl

@[simp] theorem run_request (r : Request) (s : Storage) : (request r).run s = s.answer r := rfl

/-- What is asked later is asked of the storage that the first script leaves. -/
@[simp] theorem run_bind (x : Script α) (f : α → Script β) (s : Storage) :
    (x >>= f).run s = (f (x.run s).1).run (x.run s).2 := by
  induction x generalizing s with
  | done a => rfl
  | ask r next ih => exact ih (s.answer r).1 (s.answer r).2

/-- The directories that hold an entry, the nearest first. -/
def holders (path : String) : List String :=
  let (first, others) := Text.split '/' path
  let names := (first :: others).filter fun name => name ≠ "" ∧ name ≠ "."
  let start := if first = "" then "/" else ""
  ((Address.steps names.dropLast).map fun names => start ++ "/".intercalate names).reverse

def needDirectory (path : String) : Script (Except Trouble Unit) := do
  match ← request (.makeDirectory path) with
  | .ok () => pure (.ok ())
  | .error e => if ← request (.isDirectory path) then pure (.ok ()) else pure (.error e)

/-- Makes a directory, and before it the missing ones of those that hold it. -/
def needDirectories (path : String) : List String → Script (Except Trouble Unit)
  | [] => needDirectory path
  | holder :: holders => do
    match ← request (.makeDirectory path) with
    | .error .notFound =>
      match ← needDirectories holder holders with
      | .ok () => needDirectory path
      | .error e => pure (.error e)
    | .ok () => pure (.ok ())
    | .error e => if ← request (.isDirectory path) then pure (.ok ()) else pure (.error e)

/-- Makes a directory with all that hold it. The empty path is the directory of the work. -/
def makeDirectories (path : String) : Script (Except Trouble Unit) :=
  if path = "" then pure (.ok ()) else needDirectories path (holders path)

end Script

end FlowArtifact
