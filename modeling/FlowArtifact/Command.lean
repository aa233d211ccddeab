import FlowArtifact.Command.Arguments
import FlowArtifact.Format

/-!
# Commands

The commands that can be given to the program, and how the arguments name them.
-/

namespace FlowArtifact

inductive Command where
  /-- Writes a sample artifact into a directory, with the name of the directory if none is given. -/
  | init (path : String) (name : Option String) (format : Format)
  /-- Checks an artifact. -/
  | validate (file : String)
  /-- Shows the declaration at a location. -/
  | locate (file location : String)
  /-- Lists all locations. -/
  | list (file : String)
  /-- Writes an artifact again; the format is that of the output if none is given. -/
  | convert (file : String) (format : Option Format) (compact : Bool) (output : Option String)
deriving DecidableEq

namespace Command

def program : String := "weftline"

def version : String := "0.1.0"

def verboseFlag : Flag := ⟨"verbose", some 'v', .mark⟩

def helpFlag : Flag := ⟨"help", some 'h', .stop .help⟩

def formatFlag (long : String) (short : Char) : Flag :=
  ⟨long, some short, .setting fun text => (Format.ofName text).toOption.isSome⟩

def textFlag (long : String) (short : Char) : Flag := ⟨long, some short, .setting fun _ => true⟩

def signature (flags : List Flag) (words : Nat) : Signature :=
  ⟨verboseFlag :: helpFlag :: flags, words⟩

def formatOf (g : Given) (long : String) : Option Format :=
  (g.value? long).bind fun text => (Format.ofName text).toOption

def readInit (args : List String) : Except Halt Command := do
  let g ← (signature [textFlag "name" 'n', formatFlag "format" 'f'] 1).read args
  pure (.init (g.words.head?.getD ".") (g.value? "name") ((formatOf g "format").getD .json))

def readValidate (args : List String) : Except Halt Command := do
  let g ← (signature [] 1).read args
  match g.words with
  | [file] => pure (.validate file)
  | _ => throw .refused

/-- A location is given unless all are listed. -/
def readLocate (args : List String) : Except Halt Command := do
  let g ← (signature [⟨"list", none, .mark⟩] 2).read args
  match g.words, g.has "list" with
  | [file, location], false => pure (.locate file location)
  | [file], true => pure (.list file)
  | _, _ => throw .refused

def readConvert (args : List String) : Except Halt Command := do
  let g ← (signature [formatFlag "to" 't', ⟨"compact", none, .mark⟩, textFlag "output" 'o'] 1).read
    args
  match g.words with
  | [file] => pure (.convert file (formatOf g "to") (g.has "compact") (g.value? "output"))
  | _ => throw .refused

def names : List (String × (List String → Except Halt Command)) :=
  [("init", readInit), ("validate", readValidate), ("locate", readLocate),
    ("convert", readConvert)]

def readHelp : List String → Halt
  | [] => .help
  | [name] => if name = "help" ∨ (names.lookup name).isSome then .help else .refused
  | _ => .refused

/-- The options that may stand before the name of the command. -/
def leading : Signature :=
  ⟨[verboseFlag, helpFlag, ⟨"version", some 'V', .stop .version⟩], 0⟩

/-- Reads options up to the first word, which names the command that the others belong to. -/
def readFrom (g : Given) : List String → Except Halt Command
  | [] => .error .refused
  | arg :: args =>
    match g.stage, isDashed arg with
    | .anything, false =>
      if arg = "help" then .error (readHelp args)
      else
        match names.lookup arg with
        | some read => read args
        | none => .error .refused
    | _, _ => do readFrom (← leading.argument g arg) args

def ofArguments (args : List String) : Except Halt Command := readFrom {} args

end Command

end FlowArtifact
