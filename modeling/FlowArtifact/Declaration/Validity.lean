import FlowArtifact.Declaration
import FlowArtifact.Error

/-!
# Checking artifacts

The rules of ownership and nesting: reference names are usable in locations and unique, components
and values are not nested too deep, and no route is a child of a route. The checks stop at the first
breach. The main operation is `Artifact.validate`.
-/

namespace FlowArtifact

def checkDepth (element what : String) (depth : Nat) : Except Error Unit :=
  if maxValueDepth < depth then .error (.invalidStructure element (.valueTooDeep what)) else .ok ()

def checkAll {α : Type} (check : α → Except Error Unit) : List α → Except Error Unit
  | [] => .ok ()
  | a :: rest => do
    check a
    checkAll check rest

namespace Attributes

def check (a : Attributes) : Except Error Unit := do
  checkAll (fun e => checkDepth a.name s!"metadata property '{e.1}'" e.2.depth) a.metadata.entries
  checkAll (fun p => checkDepth a.name s!"custom parameter '{p.name}'" p.value.depth) a.custom

end Attributes

namespace ParameterGroup

def checkGroups (element : String) (groups : List ParameterGroup) : Except Error Unit :=
  checkAll (fun g => checkAll (fun e => checkDepth element s!"parameter '{e.1}'" e.2.depth)
    g.parameters.entries) groups

end ParameterGroup

namespace Component

def checkChild (c child : Component) : Except Error Unit :=
  if c.kind = .route ∧ child.kind = .route then
    .error (.invalidStructure c.attributes.name (.nestedRoute child.attributes.name))
  else if maxComponentDepth ≤ child.nestingDepth then
    .error (.invalidStructure c.attributes.name .componentsTooDeep)
  else .ok ()

mutual
def check : Component → Except Error Unit
  | ⟨kind, attributes, configRef, groups, components, errorHandlers⟩ => do
    let c : Component := ⟨kind, attributes, configRef, groups, components, errorHandlers⟩
    attributes.check
    ParameterGroup.checkGroups attributes.name groups
    checkChildren c components
    checkChildren c errorHandlers

def checkChildren (parent : Component) : List Component → Except Error Unit
  | [] => .ok ()
  | child :: rest => do
    parent.checkChild child
    child.check
    checkChildren parent rest
end

def checkIn (construct : String) (c : Component) : Except Error Unit :=
  if maxComponentDepth < c.nestingDepth then
    .error (.invalidStructure construct .componentsTooDeep)
  else c.check

end Component

namespace GlobalElement

def checkContent : GlobalElement → Except Error Unit
  | configuration c => do
    ParameterGroup.checkGroups c.attributes.name c.groups
    match c.connection with
    | none => pure ()
    | some connection =>
      connection.attributes.check
      ParameterGroup.checkGroups connection.attributes.name connection.groups
  | construct c => do
    ParameterGroup.checkGroups c.attributes.name c.groups
    checkAll (Component.checkIn c.attributes.name) (c.components ++ c.errorHandlers)
  | topLevelParameter p => checkDepth p.attributes.name "value" p.value.depth

def check (e : GlobalElement) : Except Error Unit := do
  match e.refName with
  | some name => (Location.checkGlobalName name).mapError .location
  | none => pure ()
  e.attributes.check
  e.checkContent

end GlobalElement

namespace Artifact

/-- Checks elements whose reference names may not be among those seen before. -/
def checkElements (seen : List String) : List GlobalElement → Except Error Unit
  | [] => .ok ()
  | e :: rest =>
    match e.refName with
    | none => do
      e.check
      checkElements seen rest
    | some name =>
      if name ∈ seen then .error (.duplicateRefName name)
      else do
        e.check
        checkElements (name :: seen) rest

def validate (a : Artifact) : Except Error Unit := do
  checkElements [] a.globalElements
  a.attributes.check

end Artifact

end FlowArtifact
