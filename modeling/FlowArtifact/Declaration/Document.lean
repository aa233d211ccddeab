import FlowArtifact.Declaration
import FlowArtifact.Value.Document

/-!
# Documents of declarations

Every declaration is a record with its attributes next to its own fields. Empty parts are left out
by the writer and supplied by the reader; the elements of an artifact, the parameters of a group and
the value of a top-level parameter are always written. Fields that are not known are passed over.
-/

namespace FlowArtifact

namespace Parameter

def toDoc (p : Parameter) : Doc := .named [("name", .text p.name), ("value", p.value.toDoc)]

def structName : String := "struct ParameterDeclaration"

/-- A parameter of a record, or of a list of its name and value. -/
def ofDoc : Doc → Fit Parameter
  | .record fields => do
    let (found, seen) ← Doc.readFields (Doc.fieldName ["name", "value"])
      (fun name d (p : Option String × Option Value) =>
        if name = "name" then do pure (some (← Doc.asText d), p.2)
        else do pure (p.1, some (← Value.ofDoc d)))
      [] (none, none) fields
    Doc.require ["name", "value"] seen
    pure ⟨found.1.getD "", found.2.getD default⟩
  | .list [] => throw (.wrongLength 0 (structName ++ " with 2 elements"))
  | .list [name] => do
    let _ ← Doc.asText name
    throw (.wrongLength 1 (structName ++ " with 2 elements"))
  | .list (name :: value :: rest) => do
    let name ← Doc.asText name
    let value ← Value.ofDoc value
    if rest.isEmpty then pure ⟨name, value⟩ else throw (Doc.tooLong (rest.length + 2) 2)
  | d => throw (.wrongType d.head structName)

end Parameter

namespace ParameterGroup

def toDoc (g : ParameterGroup) : Doc :=
  .named [("name", .text g.name), ("parameters", .named (g.parameters.map Value.toDoc).entries)]

def structName : String := "struct ParameterGroupDeclaration"

/-- A group of a record, or of a list of its name and parameters. -/
def ofDoc : Doc → Fit ParameterGroup
  | .record fields => do
    let (g, seen) ← Doc.readFields (Doc.fieldName ["name", "parameters"])
      (fun name d (g : ParameterGroup) =>
        if name = "name" then do pure { g with name := ← Doc.asText d }
        else do pure { g with parameters := ← Doc.asNameMap Value.ofDoc d })
      [] ⟨"", .empty⟩ fields
    Doc.require ["name"] seen
    pure g
  | .list [] => throw (.wrongLength 0 (structName ++ " with 2 elements"))
  | .list [name] => do pure ⟨← Doc.asText name, .empty⟩
  | .list (name :: parameters :: rest) => do
    let name ← Doc.asText name
    let parameters ← Doc.asNameMap Value.ofDoc parameters
    if rest.isEmpty then pure ⟨name, parameters⟩ else throw (Doc.tooLong (rest.length + 2) 2)
  | d => throw (.wrongType d.head structName)

def listOfDoc (d : Doc) : Fit (List ParameterGroup) := do
  (← Doc.asList d).mapM ofDoc

end ParameterGroup

namespace Attributes

def fields (a : Attributes) : List (String × Doc) :=
  ("name", .text a.name) ::
    (if a.extension = "" then [] else [("declaringExtension", .text a.extension)]) ++
    (if a.metadata.isEmpty then []
      else [("metadataProperties", .named (a.metadata.map Datum.toDoc).entries)]) ++
    listField "customConfigurationParameters" (a.custom.map Parameter.toDoc)

def fieldNames : List String :=
  ["name", "declaringExtension", "metadataProperties", "customConfigurationParameters"]

def setField (name : String) (d : Doc) (a : Attributes) : Fit Attributes :=
  if name = "name" then do pure { a with name := ← Doc.asText d }
  else if name = "declaringExtension" then do pure { a with extension := ← Doc.asText d }
  else if name = "metadataProperties" then do
    pure { a with metadata := ← Doc.asNameMap Datum.ofDoc d }
  else do pure { a with custom := ← (← Doc.asList d).mapM Parameter.ofDoc }

def attributeName (key : Head) : Fit (Option String) :=
  .ok (key.name?.filter (· ∈ fieldNames))

def ofFields (fields : List (Head × Doc)) : Fit Attributes := do
  let (a, seen) ← Doc.readFields attributeName setField [] {} fields
  Doc.require ["name"] seen
  pure a

end Attributes

namespace Connection

def fields (c : Connection) : List (String × Doc) :=
  c.attributes.fields ++ listField "parameterGroups" (c.groups.map ParameterGroup.toDoc)

def ofDoc : Doc → Fit Connection
  | .record fields => do
    let (c, _) ← Doc.readFields (Doc.textFieldName ["parameterGroups"])
      (fun _ d (c : Connection) => do pure { c with groups := ← ParameterGroup.listOfDoc d })
      [] {} fields
    pure { c with attributes := ← Attributes.ofFields fields }
  | d => throw (.wrongType d.head "struct ConnectionDeclaration")

end Connection

namespace Configuration

def fields (c : Configuration) : List (String × Doc) :=
  c.attributes.fields ++ optionalField "refName" Doc.text c.refName ++
    listField "parameterGroups" (c.groups.map ParameterGroup.toDoc) ++
    optionalField "connection" (fun n : Connection => .named n.fields) c.connection

def setField (name : String) (d : Doc) (c : Configuration) : Fit Configuration :=
  if name = "refName" then do pure { c with refName := ← Doc.asOptionalText d }
  else if name = "parameterGroups" then do
    pure { c with groups := ← ParameterGroup.listOfDoc d }
  else
    match d with
    | .scalar .null => pure { c with connection := none }
    | d => do pure { c with connection := some (← Connection.ofDoc d) }

def ofDoc : Doc → Fit Configuration
  | .record fields => do
    let (c, _) ← Doc.readFields (Doc.textFieldName ["refName", "parameterGroups", "connection"])
      setField [] {} fields
    pure { c with attributes := ← Attributes.ofFields fields }
  | d => throw (.wrongType d.head "struct ConfigurationDeclaration")

end Configuration

namespace ComponentKind

/-- The role that a key names, by its name or its number. -/
def ofHead : Head → Fit ComponentKind
  | .scalar (.text s) =>
    match named.lookup s with
    | some k => .ok k
    | none => .error (.unknownVariant s (named.map (·.1)))
  | .scalar (.int n) =>
    if n.val < 0 then .error (.wrongType (.scalar (.int n)) "variant identifier")
    else
      match named[n.val.toNat]? with
      | some (_, k) => .ok k
      | none => .error (.wrongValue (.scalar (.int n)) "variant index 0 <= i < 5")
  | key => .error (.wrongType key "variant identifier")

/-- The role that a document names: a text, or a record with a single field that says no more. -/
def ofDoc : Doc → Fit ComponentKind
  | .scalar (.text s) => ofHead (.scalar (.text s))
  | .record [(key, d)] => do
    let k ← ofHead key
    match d with
    | .scalar .null | .record [] => pure k
    | d => throw (.wrongType d.head "unit")
  | .record _ => throw (.wrongValue .record "map with a single key")
  | d => throw (.wrongType d.head "string or map")

end ComponentKind

namespace Component

mutual
def fields : Component → List (String × Doc)
  | ⟨kind, attributes, configRef, groups, components, errorHandlers⟩ =>
    ("kind", .text kind.name) :: attributes.fields ++
      optionalField "configRef" Doc.text configRef ++
      listField "parameterGroups" (groups.map ParameterGroup.toDoc) ++
      listField "components" (docs components) ++
      listField "errorHandlers" (docs errorHandlers)

def docs : List Component → List Doc
  | [] => []
  | c :: rest => .named c.fields :: docs rest
end

def fieldNames : List String :=
  ["kind", "configRef", "parameterGroups", "components", "errorHandlers"]

def setField (name : String) (d : Doc) (c : Component) : Fit Component :=
  if name = "kind" then do pure { c with kind := ← ComponentKind.ofDoc d }
  else if name = "configRef" then do pure { c with configRef := ← Doc.asOptionalText d }
  else do pure { c with groups := ← ParameterGroup.listOfDoc d }

mutual
def ofDoc : Doc → Fit Component
  | .record fields => do
    let (c, seen) ← readFields [] {} fields
    Doc.require ["kind"] seen
    pure { c with attributes := ← Attributes.ofFields fields }
  | d => throw (.wrongType d.head "struct ComponentDeclaration")

def readFields (seen : List String) (c : Component) :
    List (Head × Doc) → Fit (Component × List String)
  | [] => .ok (c, seen)
  | (key, d) :: rest => do
    match ← Doc.textFieldName fieldNames key with
    | none => readFields seen c rest
    | some name =>
      if name ∈ seen then throw (.duplicate name)
      else if name = "components" then do
        let children ← listOfDoc d
        readFields (name :: seen) { c with components := children } rest
      else if name = "errorHandlers" then do
        let children ← listOfDoc d
        readFields (name :: seen) { c with errorHandlers := children } rest
      else do
        let next ← setField name d c
        readFields (name :: seen) next rest

def listOfDoc : Doc → Fit (List Component)
  | .list items => ofDocs items
  | d => throw (.wrongType d.head "a sequence")

def ofDocs : List Doc → Fit (List Component)
  | [] => .ok []
  | d :: rest => do
    let c ← ofDoc d
    let cs ← ofDocs rest
    pure (c :: cs)
end

end Component

namespace Construct

def fields (c : Construct) : List (String × Doc) :=
  c.attributes.fields ++ optionalField "refName" Doc.text c.refName ++
    listField "parameterGroups" (c.groups.map ParameterGroup.toDoc) ++
    listField "components" (Component.docs c.components) ++
    listField "errorHandlers" (Component.docs c.errorHandlers)

def setField (name : String) (d : Doc) (c : Construct) : Fit Construct :=
  if name = "refName" then do pure { c with refName := ← Doc.asOptionalText d }
  else if name = "parameterGroups" then do
    pure { c with groups := ← ParameterGroup.listOfDoc d }
  else if name = "components" then do pure { c with components := ← Component.listOfDoc d }
  else do pure { c with errorHandlers := ← Component.listOfDoc d }

def ofDoc : Doc → Fit Construct
  | .record fields => do
    let (c, _) ← Doc.readFields
      (Doc.textFieldName ["refName", "parameterGroups", "components", "errorHandlers"])
      setField [] {} fields
    pure { c with attributes := ← Attributes.ofFields fields }
  | d => throw (.wrongType d.head "struct ConstructDeclaration")

end Construct

namespace TopLevelParameter

def fields (p : TopLevelParameter) : List (String × Doc) :=
  p.attributes.fields ++ optionalField "refName" Doc.text p.refName ++ [("value", p.value.toDoc)]

def setField (name : String) (d : Doc) (p : TopLevelParameter) : Fit TopLevelParameter :=
  if name = "refName" then do pure { p with refName := ← Doc.asOptionalText d }
  else do pure { p with value := ← ObjectValue.ofDoc d }

def ofDoc : Doc → Fit TopLevelParameter
  | .record fields => do
    let (p, _) ← Doc.readFields (Doc.textFieldName ["refName", "value"]) setField [] {} fields
    pure { p with attributes := ← Attributes.ofFields fields }
  | d => throw (.wrongType d.head "struct TopLevelParameterDeclaration")

end TopLevelParameter

namespace GlobalElement

inductive Kind where
  | configuration
  | construct
  | topLevelParameter
deriving DecidableEq

namespace Kind

def name : Kind → String
  | configuration => "configuration"
  | construct => "construct"
  | topLevelParameter => "topLevelParameter"

def all : List Kind := [configuration, construct, topLevelParameter]

def ofName (name : String) : Fit Kind :=
  match all.find? (·.name = name) with
  | some k => .ok k
  | none => .error (.unknownVariant name (all.map Kind.name))

end Kind

def kind : GlobalElement → Kind
  | configuration _ => .configuration
  | construct _ => .construct
  | topLevelParameter _ => .topLevelParameter

def fields : GlobalElement → List (String × Doc)
  | configuration c => c.fields
  | construct c => c.fields
  | topLevelParameter p => p.fields

def toDoc (e : GlobalElement) : Doc := .named (("kind", .text e.kind.name) :: e.fields)

def ofContent (kind : Kind) (d : Doc) : Fit GlobalElement :=
  match kind with
  | .configuration => do pure (.configuration (← Configuration.ofDoc d))
  | .construct => do pure (.construct (← Construct.ofDoc d))
  | .topLevelParameter => do pure (.topLevelParameter (← TopLevelParameter.ofDoc d))

end GlobalElement

namespace Artifact

def toDoc (a : Artifact) : Doc :=
  .named (a.attributes.fields ++
    [("globalElements", .list (a.globalElements.map GlobalElement.toDoc))])

end Artifact

end FlowArtifact
