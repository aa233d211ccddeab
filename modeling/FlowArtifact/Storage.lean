import FlowArtifact.Text.Split

/-!
# Stored files

A storage is a tree of directories and files. A path names an entry by the directories on the way
to it, from the root or from the directory where the work is done; `.` stays in a directory and
`..` goes back. What a path cannot reach is reported in the words of the operating system.
-/

namespace FlowArtifact

/-- The names on the way from the root to an entry. -/
abbrev Address := List String

inductive Entry where
  | file (text : String)
  | directory
deriving DecidableEq

inductive Trouble where
  | notFound
  | alreadyThere
  | notDirectory
  | isDirectory
  | nameTooLong
  /-- A trouble that this library has no name for. -/
  | other (message : String)
deriving DecidableEq

def Trouble.message : Trouble → String
  | notFound => "No such file or directory (os error 2)"
  | alreadyThere => "File exists (os error 17)"
  | notDirectory => "Not a directory (os error 20)"
  | isDirectory => "Is a directory (os error 21)"
  | nameTooLong => "File name too long (os error 36)"
  | other message => message

/-- The places on the way to an address, and the address itself, from the root on. -/
def Address.steps : Address → List Address
  | [] => []
  | name :: names => [name] :: (steps names).map (name :: ·)

/-- The entries of a tree and the directory where relative paths begin. -/
structure Storage where
  entries : List (Address × Entry) := []
  home : Address := []
deriving DecidableEq

namespace Storage

/-- What a path leads to: an address, what is there now, and whether a separator ends the path. -/
structure Target where
  address : Address
  entry : Option Entry
  closed : Bool

/-- The most bytes of a name. -/
def maxNameLength : Nat := 255

def maxPathLength : Nat := 4095

/-- The entry at an address. The root is always a directory. -/
def entry? (s : Storage) (address : Address) : Option Entry :=
  if address = [] then some .directory else s.entries.lookup address

def file? (s : Storage) (address : Address) : Option String :=
  match s.entry? address with
  | some (.file text) => some text
  | _ => none

def put (s : Storage) (address : Address) (e : Entry) : Storage :=
  { s with entries := (address, e) :: s.entries.filter (·.1 ≠ address) }

def files (s : Storage) : List (Address × String) :=
  s.entries.filterMap fun (address, e) =>
    match e with
    | .file text => some (address, text)
    | .directory => none

/-- Follows names from a directory. All but the last one must be directories. -/
def walk (s : Storage) (closed : Bool) (address : Address) : List String → Except Trouble Target
  | [] => .ok ⟨address, some .directory, closed⟩
  | name :: names =>
    if name = "." then s.walk closed address names
    else if name = ".." then s.walk closed address.dropLast names
    else if maxNameLength < name.utf8ByteSize then .error .nameTooLong
    else
      let next := address ++ [name]
      match s.entry? next, names with
      | some .directory, _ => s.walk closed next names
      | entry, [] => .ok ⟨next, entry, closed⟩
      | some (.file _), _ :: _ => .error .notDirectory
      | none, _ :: _ => .error .notFound

def resolve (s : Storage) (path : String) : Except Trouble Target :=
  if path = "" then .error .notFound
  else if maxPathLength < path.utf8ByteSize then .error .nameTooLong
  else
    let (first, others) := Text.split '/' path
    s.walk (others.getLast? = some "") (if first = "" then [] else s.home)
      ((first :: others).filter (· ≠ ""))

def read (s : Storage) (path : String) : Except Trouble String := do
  let target ← s.resolve path
  match target.entry with
  | some (.file text) => if target.closed then .error .notDirectory else .ok text
  | some .directory => .error .isDirectory
  | none => .error .notFound

/-- Gives a file a text; the file is made if it is missing. -/
def write (s : Storage) (path text : String) : Except Trouble Storage := do
  let target ← s.resolve path
  if target.closed ∨ target.entry = some .directory then .error .isDirectory
  else .ok (s.put target.address (.file text))

def makeDirectory (s : Storage) (path : String) : Except Trouble Storage := do
  let target ← s.resolve path
  match target.entry with
  | none => .ok (s.put target.address .directory)
  | some _ => .error .alreadyThere

def isDirectory (s : Storage) (path : String) : Bool :=
  match s.resolve path with
  | .ok target => target.entry = some .directory
  | .error _ => false

def isPresent (s : Storage) (path : String) : Except Trouble Bool :=
  match s.resolve path with
  | .ok ⟨_, none, _⟩ | .error .notFound => .ok false
  | .ok ⟨_, some (.file _), true⟩ => .error .notDirectory
  | .ok _ => .ok true
  | .error e => .error e

/-- The name of the entry that a path leads to. The root has none. -/
def nameOf (s : Storage) (path : String) : Except Trouble (Option String) := do
  let target ← s.resolve path
  match target.entry with
  | none => .error .notFound
  | some (.file _) => if target.closed then .error .notDirectory else .ok target.address.getLast?
  | some .directory => .ok target.address.getLast?

/-- Puts a file at an address, and directories on the way to it. -/
def plant (s : Storage) (address : Address) (text : String) : Storage :=
  let held := (Address.steps address.dropLast).foldl (fun s p => s.put p .directory) s
  held.put address (.file text)

/-- The storage with an empty directory, where the work is done, and with files below it. -/
def ofFiles (home : Address) (files : List (Address × String)) : Storage :=
  files.foldl (fun s (address, text) => s.plant (home ++ address) text)
    ⟨[(home, .directory)], home⟩

end Storage

end FlowArtifact
