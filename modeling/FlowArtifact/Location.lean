import FlowArtifact.Number.Integer
import FlowArtifact.Text.Affix
import FlowArtifact.Text.Split

/-!
# Locations

A location addresses a node of an artifact: the name of a global element and the parts of a path
below it, written with `/` between them. This module holds the rules for names and parts; locations
are made by `Location.Builder`.
-/

namespace FlowArtifact

/-- A path to a node of an artifact. -/
structure Location where
  globalName : String
  parts : List String
deriving DecidableEq, Inhabited

namespace Location

def separator : Char := '/'

inductive Token where
  | source
  | connection
  | processors
  | errorHandler
deriving DecidableEq

def Token.text : Token → String
  | source => "source"
  | connection => "connection"
  | processors => "processors"
  | errorHandler => "errorHandler"

/-- What was being done to a location when its global name was missing. -/
inductive Operation where
  | addingPart
  | addingIndex
  | addingToken (t : Token)
  | building
deriving DecidableEq

def Operation.text : Operation → String
  | addingPart => "adding a part"
  | addingIndex => "adding an index part"
  | addingToken t => s!"adding the '{t.text}' part"
  | building => "building"

inductive Role where
  | globalName
  | part
deriving DecidableEq

def Role.text : Role → String
  | globalName => "global name"
  | part => "part"

inductive Error where
  | missingGlobalName (operation : Operation)
  | globalNameAlreadySet (current : String)
  | empty (role : Role)
  | reserved (part : String) (character : Char)
  | consecutiveIndex (index previous : String)
  | nonNumericProcessor (part : String)
deriving DecidableEq

def Error.message : Error → String
  | missingGlobalName operation => s!"location global name must be set before {operation.text}"
  | globalNameAlreadySet current => s!"location global name already set to '{current}'"
  | empty role => s!"location {role.text} must not be empty"
  | reserved part character =>
    s!"location part '{part}' contains reserved character '{character}'"
  | consecutiveIndex index previous =>
    s!"index {index} cannot follow another index (previous part '{previous}')"
  | nonNumericProcessor part => s!"part after 'processors' must be numeric, got '{part}'"

def isReserved (c : Char) : Bool :=
  c = '/' || c = '[' || c = ']' || c = '{' || c = '}' || c = '#'

/-- A text of decimal digits, at least one. -/
def isNumeric (part : String) : Bool := part ≠ "" && part.toList.all Char.isDigit

def checkText (role : Role) (text : String) : Except Error Unit :=
  if text = "" then .error (.empty role)
  else
    match text.toList.find? isReserved with
    | some c => .error (.reserved text c)
    | none => .ok ()

/-- The text inside the braces of a placeholder, which holds no separator. -/
def placeholder? (name : String) : Option (List Char) := do
  let rest ← Text.dropStart? ['$', '{'] name.toList
  let inner ← Text.dropEnd? ['}'] rest
  if inner ≠ [] ∧ separator ∉ inner then some inner else none

/-- The rule for global names: a placeholder, or a text without reserved characters. -/
def checkGlobalName (name : String) : Except Error Unit :=
  match placeholder? name with
  | some _ => .ok ()
  | none => checkText .globalName name

/-- A location that addresses a global element itself. -/
def isGlobal (l : Location) : Bool := l.parts.isEmpty

def text (l : Location) : String :=
  String.ofList (Text.glue separator l.globalName.toList (l.parts.map String.toList))

inductive Segment where
  | token (t : Token)
  | index (n : Nat)
  | name (text : String)
deriving DecidableEq

def indexLimit : Nat := 18446744073709551616

/-- The meaning of a part. A number that is too large for an index is a name. -/
def Segment.classify (part : String) : Segment :=
  if part = Token.source.text then .token .source
  else if part = Token.connection.text then .token .connection
  else if part = Token.processors.text then .token .processors
  else if part = Token.errorHandler.text then .token .errorHandler
  else if isNumeric part ∧ decimal part.toList < indexLimit then .index (decimal part.toList)
  else .name part

def segments (l : Location) : List Segment := l.parts.map Segment.classify

end Location

end FlowArtifact
