import FlowArtifact.Declaration.Validity

/-!
# Building declarations

Declarations are built by adding to them. Elements join an artifact and components join a component
only if the rules of ownership and nesting still hold; all else is added as it is.
-/

namespace FlowArtifact

class Attributed (δ : Type) where
  attributes : δ → Attributes
  modifyAttributes : (Attributes → Attributes) → δ → δ

class Grouped (δ : Type) extends Attributed δ where
  groups : δ → List ParameterGroup
  modifyGroups : (List ParameterGroup → List ParameterGroup) → δ → δ

instance : Attributed Artifact where
  attributes a := a.attributes
  modifyAttributes f a := { a with attributes := f a.attributes }

instance : Attributed TopLevelParameter where
  attributes p := p.attributes
  modifyAttributes f p := { p with attributes := f p.attributes }

instance : Grouped Configuration where
  attributes c := c.attributes
  modifyAttributes f c := { c with attributes := f c.attributes }
  groups c := c.groups
  modifyGroups f c := { c with groups := f c.groups }

instance : Grouped Connection where
  attributes c := c.attributes
  modifyAttributes f c := { c with attributes := f c.attributes }
  groups c := c.groups
  modifyGroups f c := { c with groups := f c.groups }

instance : Grouped Construct where
  attributes c := c.attributes
  modifyAttributes f c := { c with attributes := f c.attributes }
  groups c := c.groups
  modifyGroups f c := { c with groups := f c.groups }

instance : Grouped Component where
  attributes c := c.attributes
  modifyAttributes f c := { c with attributes := f c.attributes }
  groups c := c.groups
  modifyGroups f c := { c with groups := f c.groups }

section
variable {δ : Type}

def withMetadata [Attributed δ] (key : String) (value : Datum) : δ → δ :=
  Attributed.modifyAttributes fun a => { a with metadata := a.metadata.insert key value }

/-- Appends a parameter that the extension does not know. -/
def withCustom [Attributed δ] (name : String) (value : Value) : δ → δ :=
  Attributed.modifyAttributes fun a => { a with custom := a.custom ++ [⟨name, value⟩] }

/-- Appends a group. Names may repeat. -/
def withGroup [Grouped δ] (group : ParameterGroup) : δ → δ :=
  Grouped.modifyGroups (· ++ [group])

end

def Attributes.new (extension name : String) : Attributes := { name, extension }

namespace ParameterGroup

def new (name : String) : ParameterGroup := ⟨name, .empty⟩

def withParameter (name : String) (value : Value) (g : ParameterGroup) : ParameterGroup :=
  { g with parameters := g.parameters.insert name value }

end ParameterGroup

namespace Component

def new (kind : ComponentKind) (extension name : String) : Component :=
  { kind, attributes := .new extension name }

def withComponent (c child : Component) : Except Error Component := do
  c.checkChild child
  pure { c with components := c.components ++ [child] }

def withErrorHandler (c child : Component) : Except Error Component := do
  c.checkChild child
  pure { c with errorHandlers := c.errorHandlers ++ [child] }

/-- Appends a route that `enrich` completes. -/
def withRoute (name : String) (enrich : Component → Except Error Component) (c : Component) :
    Except Error Component := do
  let route ← enrich (new .route c.attributes.extension name)
  c.withComponent route

def withConfig (configRef : String) (c : Component) : Component :=
  { c with configRef := some configRef }

end Component

namespace Artifact

def withGlobalElement (e : GlobalElement) (a : Artifact) : Except Error Artifact := do
  e.check
  match e.refName with
  | some name =>
    if (a.globalElement? name).isSome then throw (.duplicateRefName name)
    else pure { a with globalElements := a.globalElements ++ [e] }
  | none => pure { a with globalElements := a.globalElements ++ [e] }

def withName (name : String) (a : Artifact) : Artifact :=
  { a with attributes := { a.attributes with name } }

end Artifact

end FlowArtifact
