import FlowArtifact.Datum
import FlowArtifact.Location.Builder
import FlowArtifact.Live.Identifier

/-!
# Live components

What a runtime says about a live component: where it was declared, and annotations under qualified
names. The location is given by its parts and by its text, which is taken as it comes; it becomes a
`Location` only when it is asked for.
-/

namespace FlowArtifact

inductive ComponentType where
  | flow
  | source
  | operation
  | router
  | scope
  | route
  | chain
  | errorHandler
  | onError
  | unknown
deriving DecidableEq, Inhabited

namespace ComponentType

def name : ComponentType → String
  | flow => "FLOW"
  | source => "SOURCE"
  | operation => "OPERATION"
  | router => "ROUTER"
  | scope => "SCOPE"
  | route => "ROUTE"
  | chain => "CHAIN"
  | errorHandler => "ERROR_HANDLER"
  | onError => "ON_ERROR"
  | unknown => "UNKNOWN"

def all : List ComponentType :=
  [flow, source, operation, router, scope, route, chain, errorHandler, onError, unknown]

end ComponentType

structure TypedIdentifier where
  identifier : Identifier
  type : ComponentType
deriving DecidableEq, Inhabited

/-- A part of a component location, and the component that it leads to if it leads to one. -/
structure LocationPart where
  path : String
  identifier : Option TypedIdentifier := none
deriving DecidableEq, Inhabited

structure ComponentLocation where
  text : String
  fileName : Option String := none
  line : Option UInt32 := none
  column : Option UInt32 := none
  parts : List LocationPart := []
deriving DecidableEq, Inhabited

namespace ComponentLocation

def ofParts (parts : List LocationPart) : ComponentLocation where
  text :=
    match parts.map fun p => p.path.toList with
    | [] => ""
    | first :: others => String.ofList (Text.glue Location.separator first others)
  parts := parts

def withPosition (l : ComponentLocation) (fileName : String) (line column : UInt32) :
    ComponentLocation :=
  { l with fileName := some fileName, line := some line, column := some column }

/-- The name of the global element that the component is in. -/
def rootName (l : ComponentLocation) : String := (Text.split Location.separator l.text).1

/-- The last component that a part leads to. -/
def identifier? (l : ComponentLocation) : Option TypedIdentifier :=
  l.parts.reverse.findSome? (·.identifier)

def toLocation (l : ComponentLocation) : Except Location.Error Location := Location.parse l.text

end ComponentLocation

structure QualifiedName where
  «namespace» : String
  «local» : String
deriving DecidableEq, Inhabited

def QualifiedName.text (n : QualifiedName) : String :=
  "\x7b" ++ n.namespace ++ "\x7d" ++ n.local

/-- Annotations in the order in which they were first given. -/
structure Annotations where
  entries : List (QualifiedName × Datum) := []
deriving Inhabited, BEq

namespace Annotations

def setEntry (name : QualifiedName) (value : Datum) :
    List (QualifiedName × Datum) → List (QualifiedName × Datum)
  | [] => [(name, value)]
  | e :: rest => if e.1 = name then (e.1, value) :: rest else e :: setEntry name value rest

/-- Sets an annotation; one that is there keeps its position. -/
def insert (a : Annotations) (name : QualifiedName) (value : Datum) : Annotations :=
  ⟨setEntry name value a.entries⟩

def get? (a : Annotations) (name : QualifiedName) : Option Datum := a.entries.lookup name

def size (a : Annotations) : Nat := a.entries.length

def isEmpty (a : Annotations) : Bool := a.entries.isEmpty

end Annotations

structure LiveComponent where
  annotations : Annotations := {}
  location : Option ComponentLocation := none
deriving Inhabited

namespace LiveComponent

def withLocation (c : LiveComponent) (l : ComponentLocation) : LiveComponent :=
  { c with location := some l }

def withAnnotation (c : LiveComponent) (name : QualifiedName) (value : Datum) : LiveComponent :=
  { c with annotations := c.annotations.insert name value }

def rootLocation (c : LiveComponent) : Except Location.Error (Option Location) :=
  match c.location with
  | none => .ok none
  | some l => do
    let b ← Location.Builder.empty.setGlobalName l.rootName
    pure (some (← b.build))

end LiveComponent

end FlowArtifact
