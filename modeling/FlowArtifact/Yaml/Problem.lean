/-!
# Problems of a YAML text

The ways in which a text fails to be YAML, or to be YAML that this library reads. Some problems
name the construct that was being read and where it began.
-/

namespace FlowArtifact.Yaml

/-- A position in a text, counted from zero: bytes before it, lines before its line, and characters
before it in its line. -/
structure Mark where
  index : Nat := 0
  line : Nat := 0
  column : Nat := 0
deriving DecidableEq, Inhabited

namespace Mark

def isInside (m : Mark) : Bool := m.line ≠ 0 || m.column ≠ 0

def text (m : Mark) : String :=
  if m.isInside then s!"line {m.line + 1} column {m.column + 1}" else s!"position {m.index}"

end Mark

inductive Problem where
  /-- A fault of the notation at `mark`, or at `offset` bytes for a fault of the encoding; with the
  construct that was being read and its beginning. -/
  | badText (what : String) (offset : Nat) (mark : Mark) (context : Option (String × Mark))
  | unknownAnchor (mark : Mark)
  | endOfStream
  | manyDocuments
  | tooManyRepeats
deriving DecidableEq, Inhabited

namespace Problem

def message : Problem → String
  | badText what _ _ _ => what
  | unknownAnchor _ => "unknown anchor"
  | endOfStream => "EOF while parsing a value"
  | manyDocuments =>
    "deserializing from YAML containing more than one document is not supported"
  | tooManyRepeats => "repetition limit exceeded"

def mark? : Problem → Option Mark
  | badText _ _ mark _ | unknownAnchor mark => some mark
  | endOfStream | manyDocuments | tooManyRepeats => none

def context : Problem → String
  | badText _ offset mark context =>
    let early := if !mark.isInside && offset ≠ 0 then s!" at position {offset}" else ""
    match context with
    | none => early
    | some (construct, start) =>
      if start.isInside && (start.line ≠ mark.line || start.column ≠ mark.column) then
        early ++ ", " ++ construct ++ " at " ++ start.text
      else early ++ ", " ++ construct
  | _ => ""

end Problem

end FlowArtifact.Yaml
