import FlowArtifact.Datum
import FlowArtifact.Value

/-!
# Declarations

An artifact is the configuration of one application. It owns global elements: configurations, which
may own a connection, constructs, which own components, and top-level parameters. Every declaration
has attributes; most have groups of parameters.
-/

namespace FlowArtifact

/-- A parameter outside of any group. -/
structure Parameter where
  name : String
  value : Value
deriving Inhabited, BEq

/-- What every declaration has: its name, the extension that declares it, opaque metadata, and
parameters that the extension does not know. -/
structure Attributes where
  name : String := ""
  extension : String := ""
  metadata : NameMap Datum := .empty
  custom : List Parameter := []
deriving Inhabited, BEq

structure ParameterGroup where
  name : String
  parameters : NameMap Value := .empty
deriving Inhabited, BEq

structure Connection where
  attributes : Attributes := {}
  groups : List ParameterGroup := []
deriving Inhabited, BEq

structure Configuration where
  attributes : Attributes := {}
  refName : Option String := none
  groups : List ParameterGroup := []
  connection : Option Connection := none
deriving Inhabited, BEq

inductive ComponentKind where
  | operation
  | source
  | router
  | scope
  | route
deriving DecidableEq, Inhabited

/-- A processing unit inside a construct or another component. -/
structure Component where
  kind : ComponentKind := .operation
  attributes : Attributes := {}
  configRef : Option String := none
  groups : List ParameterGroup := []
  components : List Component := []
  errorHandlers : List Component := []
deriving Inhabited, BEq

/-- A flow or the like: a chain of components. -/
structure Construct where
  attributes : Attributes := {}
  refName : Option String := none
  groups : List ParameterGroup := []
  components : List Component := []
  errorHandlers : List Component := []
deriving Inhabited, BEq

/-- A global parameter with an object value. -/
structure TopLevelParameter where
  attributes : Attributes := {}
  refName : Option String := none
  value : ObjectValue := {}
deriving Inhabited

instance : BEq ObjectValue := ⟨fun a b => a.toValue == b.toValue⟩

deriving instance BEq for TopLevelParameter

/-- A declaration that stands on its own. -/
inductive GlobalElement where
  | configuration (c : Configuration)
  | construct (c : Construct)
  | topLevelParameter (p : TopLevelParameter)
deriving Inhabited, BEq

/-- The configuration of one application. -/
structure Artifact where
  attributes : Attributes := {}
  globalElements : List GlobalElement := []
deriving Inhabited, BEq

namespace ComponentKind

def named : List (String × ComponentKind) :=
  [("operation", operation), ("source", source), ("router", router), ("scope", scope),
    ("route", route)]

def name : ComponentKind → String
  | operation => "operation"
  | source => "source"
  | router => "router"
  | scope => "scope"
  | route => "route"

end ComponentKind

namespace GlobalElement

def attributes : GlobalElement → Attributes
  | configuration c => c.attributes
  | construct c => c.attributes
  | topLevelParameter p => p.attributes

/-- The name that locations use for the element. -/
def refName : GlobalElement → Option String
  | configuration c => c.refName
  | construct c => c.refName
  | topLevelParameter p => p.refName

end GlobalElement

namespace Component

mutual
/-- Levels of components, with this one. -/
def nestingDepth : Component → Nat
  | ⟨_, _, _, _, components, errorHandlers⟩ =>
    1 + max (nestingDepths components) (nestingDepths errorHandlers)

def nestingDepths : List Component → Nat
  | [] => 0
  | c :: rest => max c.nestingDepth (nestingDepths rest)
end

def isSource (c : Component) : Bool := c.kind = .source

def routes (c : Component) : List Component := c.components.filter (·.kind = .route)

end Component

def sourceOf (components : List Component) : Option Component :=
  components.find? Component.isSource

/-- The components that are no message sources. -/
def processorsOf (components : List Component) : List Component :=
  components.filter (!·.isSource)

namespace ParameterGroup

def named? (groups : List ParameterGroup) (name : String) : Option ParameterGroup :=
  groups.find? (·.name = name)

def parameter? (groups : List ParameterGroup) (group name : String) : Option Value := do
  (← named? groups group).parameters.get? name

def findParameter? (groups : List ParameterGroup) (name : String) : Option Value :=
  groups.findSome? fun g => g.parameters.get? name

end ParameterGroup

namespace Artifact

def globalElement? (a : Artifact) (refName : String) : Option GlobalElement :=
  a.globalElements.find? (·.refName = some refName)

end Artifact

end FlowArtifact
