import FlowArtifact.Format
import FlowArtifact.Location

/-!
# Errors

An error is structural when it reports a breach of the rules for locations and artifacts, and
concerns a text otherwise. A lookup that finds nothing is no error.
-/

namespace FlowArtifact

/-- A breach of the rules of ownership and nesting. -/
inductive Violation where
  | nestedRoute (name : String)
  | componentsTooDeep
  /-- A value, named by its place in the element, is nested too deep. -/
  | valueTooDeep (what : String)
  | badIdentifier
deriving DecidableEq

/-- The most levels of components below a construct. -/
def maxComponentDepth : Nat := 32

/-- The most levels of a parameter value or a metadata value. -/
def maxValueDepth : Nat := 16

def Violation.message : Violation → String
  | nestedRoute name => s!"a route cannot contain the nested route '{name}'"
  | componentsTooDeep => s!"components are nested deeper than {maxComponentDepth} levels"
  | valueTooDeep what => s!"{what} is nested deeper than {maxValueDepth} levels"
  | badIdentifier => "component identifier must look like 'namespace:name'"

inductive Error where
  | location (e : Location.Error)
  | invalidStructure (element : String) (violation : Violation)
  | duplicateRefName (refName : String)
  /-- A text that is no artifact; line and column are 0 when they are not known. -/
  | malformed (line column : Nat) (message fragment : String)
  | unreadable (format : Format) (fault : Fault)
deriving DecidableEq

namespace Error

def message : Error → String
  | location e => e.message
  | invalidStructure element violation => s!"invalid structure in '{element}': {violation.message}"
  | duplicateRefName refName => s!"duplicate global element refName '{refName}'"
  | malformed line column message fragment =>
    s!"malformed artifact at line {line}, column {column}: {message} (near `{fragment}`)"
  | unreadable .json fault => "JSON error: " ++ fault.message Json.wording
  | unreadable .yaml fault => "YAML error: " ++ fault.message Yaml.wording

/-- The error reports a breach of the rules for locations and artifacts. -/
def isStructural : Error → Bool
  | location _ | invalidStructure _ _ | duplicateRefName _ => true
  | malformed .. | unreadable .. => false

end Error

end FlowArtifact
