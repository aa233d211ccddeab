import FlowArtifact.Declaration.Document
import FlowArtifact.Location.Builder

/-!
# Addressing declarations

A node is a declaration together with its position in the artifact. A location is resolved in steps
from the global element of its name: a step goes to the connection of a configuration, to the
message source, a processor or an error handler of a construct or component, or to a group or
parameter by name, where the first of several wins. In the other direction `Artifact.locations`
lists the addressable nodes of an artifact with their locations, which a builder makes on the way:
one builder is continued for each node below it.
-/

namespace FlowArtifact

/-- A declaration that can be addressed. -/
inductive Declaration where
  | configuration (c : Configuration)
  | connection (c : Connection)
  | construct (c : Construct)
  | topLevelParameter (p : TopLevelParameter)
  | component (c : Component)
  | group (g : ParameterGroup)
  | parameter (name : String) (value : Value)
deriving Inhabited, BEq

namespace Declaration

def ofElement : GlobalElement → Declaration
  | .configuration c => configuration c
  | .construct c => construct c
  | .topLevelParameter p => topLevelParameter p

def name : Declaration → String
  | configuration c => c.attributes.name
  | connection c => c.attributes.name
  | construct c => c.attributes.name
  | topLevelParameter p => p.attributes.name
  | component c => c.attributes.name
  | group g => g.name
  | parameter name _ => name

def attributes? : Declaration → Option Attributes
  | configuration c => some c.attributes
  | connection c => some c.attributes
  | construct c => some c.attributes
  | topLevelParameter p => some p.attributes
  | component c => some c.attributes
  | group _ | parameter _ _ => none

def groups? : Declaration → Option (List ParameterGroup)
  | configuration c => some c.groups
  | connection c => some c.groups
  | construct c => some c.groups
  | component c => some c.groups
  | topLevelParameter _ | group _ | parameter _ _ => none

def children? : Declaration → Option (List Component × List Component)
  | construct c => some (c.components, c.errorHandlers)
  | component c => some (c.components, c.errorHandlers)
  | _ => none

/-- The parameters of a declaration whose names are parameters and not groups. -/
def parameters? : Declaration → Option (NameMap Value)
  | group g => some g.parameters
  | topLevelParameter p => some p.value.parameters
  | parameter _ value => value.asObject?.map (·.parameters)
  | _ => none

def toDoc (d : Declaration) : Doc :=
  let kind (s : String) : String × Doc := ("declaration", .text s)
  match d with
  | configuration c => .named (kind "configuration" :: c.fields)
  | connection c => .named (kind "connection" :: c.fields)
  | construct c => .named (kind "construct" :: c.fields)
  | topLevelParameter p => .named (kind "topLevelParameter" :: p.fields)
  | component c => .named (kind "component" :: c.fields)
  | group g => .named [kind "parameterGroup", ("name", .text g.name),
      ("parameters", .named (g.parameters.map Value.toDoc).entries)]
  | parameter name value =>
    .named [kind "parameter", ("name", .text name), ("value", value.toDoc)]

end Declaration

/-- A move from a declaration to one that it owns; numbers count all components or handlers. -/
inductive Move where
  | element (i : Nat)
  | connection
  | component (i : Nat)
  | errorHandler (i : Nat)
  | group (i : Nat)
  | parameter (group : Nat) (name : String)
  | field (name : String)
deriving DecidableEq

/-- A declaration and the moves that lead to it, the last one first. -/
structure Node where
  trail : List Move
  declaration : Declaration

inductive Step where
  | connection
  | source
  | processor (i : Nat)
  | errorHandler (i : Nat)
  | name (text : String)
deriving DecidableEq

namespace Step

/-- Groups the parts of a path into steps; `none` if they do not make up steps. -/
def ofSegments? : List Location.Segment → Option (List Step)
  | [] => some []
  | .token .connection :: rest => (ofSegments? rest).map (connection :: ·)
  | .token .source :: rest => (ofSegments? rest).map (source :: ·)
  | .token .processors :: .index i :: rest => (ofSegments? rest).map (processor i :: ·)
  | .token .errorHandler :: .index i :: rest => (ofSegments? rest).map (errorHandler i :: ·)
  | .name text :: rest => (ofSegments? rest).map (name text :: ·)
  | _ => none

end Step

namespace Node

def ofElement (i : Nat) (e : GlobalElement) : Node := ⟨[.element i], .ofElement e⟩

def move (n : Node) (m : Move) (d : Declaration) : Node := ⟨m :: n.trail, d⟩

def connection? (n : Node) : Option Node :=
  match n.declaration with
  | .configuration c => c.connection.map fun d => n.move .connection (.connection d)
  | _ => none

def components? (n : Node) : Option (List (Component × Nat)) :=
  n.declaration.children?.map (·.1.zipIdx)

def source? (n : Node) : Option Node := do
  let (c, i) ← (← n.components?).find? (·.1.isSource)
  pure (n.move (.component i) (.component c))

/-- The processor at a position among those that are no message sources. -/
def processor? (n : Node) (i : Nat) : Option Node := do
  let (c, j) ← ((← n.components?).filter (!·.1.isSource))[i]?
  pure (n.move (.component j) (.component c))

def errorHandler? (n : Node) (i : Nat) : Option Node := do
  let c ← (← n.declaration.children?).2[i]?
  pure (n.move (.errorHandler i) (.component c))

/-- The first group of a name, else the first parameter of that name. -/
def inGroups? (n : Node) (groups : List ParameterGroup) (name : String) : Option Node :=
  match groups.zipIdx.find? (·.1.name = name) with
  | some (g, i) => some (n.move (.group i) (.group g))
  | none => groups.zipIdx.findSome? fun (g, i) =>
    (g.parameters.get? name).map fun v => n.move (.parameter i name) (.parameter name v)

def named? (n : Node) (name : String) : Option Node :=
  match n.declaration.groups? with
  | some groups => n.inGroups? groups name
  | none => do
    let v ← (← n.declaration.parameters?).get? name
    pure (n.move (.field name) (.parameter name v))

def step? (n : Node) : Step → Option Node
  | .connection => n.connection?
  | .source => n.source?
  | .processor i => n.processor? i
  | .errorHandler i => n.errorHandler? i
  | .name text => n.named? text

end Node

namespace Artifact

def element? (a : Artifact) (refName : String) : Option Node := do
  let (e, i) ← a.globalElements.zipIdx.find? (·.1.refName = some refName)
  pure (.ofElement i e)

def find? (a : Artifact) (l : Location) : Option Node := do
  let start ← a.element? l.globalName
  let steps ← Step.ofSegments? l.segments
  steps.foldlM Node.step? start

end Artifact

namespace Component

open Location (Builder)

def listSource (b : Builder) (trail : List Move) (number : Nat) :
    List Component → Except Location.Error (List (Location × Node))
  | [] => pure []
  | c :: rest =>
    if c.isSource then do
      let l ← (← b.addToken .source).build
      pure [(l, ⟨.component number :: trail, .component c⟩)]
    else listSource b trail (number + 1) rest

mutual
def listBelow (b : Builder) (trail : List Move) :
    Component → Except Location.Error (List (Location × Node))
  | ⟨_, _, _, _, components, errorHandlers⟩ => do
    let source ← listSource b trail 0 components
    let processors ← listProcessors (← b.addToken .processors) trail 0 0 components
    let handlers ← listHandlers (← b.addToken .errorHandler) trail 0 errorHandlers
    pure (source ++ processors ++ handlers)

/-- The processors among components, each followed by what is below it. Of the components before,
`count` were processors. -/
def listProcessors (b : Builder) (trail : List Move) (number count : Nat) :
    List Component → Except Location.Error (List (Location × Node))
  | [] => pure []
  | c :: rest =>
    if c.isSource then listProcessors b trail (number + 1) count rest
    else do
      let here ← b.addIndex count
      let n : Node := ⟨.component number :: trail, .component c⟩
      let l ← here.build
      let below ← listBelow here n.trail c
      pure ((l, n) :: below ++ (← listProcessors b trail (number + 1) (count + 1) rest))

def listHandlers (b : Builder) (trail : List Move) (number : Nat) :
    List Component → Except Location.Error (List (Location × Node))
  | [] => pure []
  | c :: rest => do
    let here ← b.addIndex number
    let n : Node := ⟨.errorHandler number :: trail, .component c⟩
    let l ← here.build
    let below ← listBelow here n.trail c
    pure ((l, n) :: below ++ (← listHandlers b trail (number + 1) rest))
end

end Component

namespace GlobalElement

def listBelow (b : Location.Builder) (trail : List Move) :
    GlobalElement → Except Location.Error (List (Location × Node))
  | configuration c =>
    match c.connection with
    | none => pure []
    | some d => do
      let l ← (← b.addToken .connection).build
      pure [(l, ⟨.connection :: trail, .connection d⟩)]
  | construct c =>
    Component.listBelow b trail { components := c.components, errorHandlers := c.errorHandlers }
  | topLevelParameter _ => pure []

def locations (i : Nat) (e : GlobalElement) : Except Location.Error (List (Location × Node)) :=
  match e.refName with
  | none => pure []
  | some name => do
    let root ← Location.Builder.empty.setGlobalName name
    let n := Node.ofElement i e
    let l ← root.build
    pure ((l, n) :: (← e.listBelow root n.trail))

end GlobalElement

namespace Artifact

/-- The addressable nodes of an artifact with their locations, in the order of the tree. -/
def locations (a : Artifact) : Except Location.Error (List (Location × Node)) := do
  pure (← a.globalElements.zipIdx.mapM fun (e, i) => e.locations i).flatten

end Artifact

end FlowArtifact
