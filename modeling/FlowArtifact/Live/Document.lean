import FlowArtifact.Json.Printer
import FlowArtifact.Live.Component
import FlowArtifact.Source.Form

/-!
# Documents of live components

Runtimes exchange the data of live components as JSON. Each record is read straight from the text.
The writer leaves out what is not known; parts and annotations are always written.
-/

namespace FlowArtifact

def Json.parse {α : Type} (read : Nat → Source → Read α) (text : String) : Read α :=
  (Json.read text).take (read Json.maxNesting)

namespace Location

def ofSource (s : Source) : Read Location := do
  let text ← s.text
  (parse text).mapError fun e => ⟨.misfit (.refused e.message), none⟩

end Location

namespace Identifier

def toDoc (i : Identifier) : Doc :=
  .named [("namespace", .text i.namespace), ("name", .text i.name)]

def form : Form Identifier where
  name := "struct ComponentIdentifier"
  fields := [
    ⟨"namespace", true, fun _ s => do let t ← s.text; pure fun i => { i with «namespace» := t }⟩,
    ⟨"name", true, fun _ s => do let t ← s.text; pure fun i => { i with name := t }⟩]

end Identifier

namespace ComponentType

def toDoc (t : ComponentType) : Doc := .text t.name

def ofName (name : String) : Fit ComponentType :=
  match all.find? (·.name = name) with
  | some t => .ok t
  | none => .error (.unknownVariant name (all.map ComponentType.name))

def readName (key : Source) : Read ComponentType :=
  match key, key.asText? with
  | .scalar spot _ _ _, some name => Read.settle spot.place (ofName name).toRead
  | _, _ => throw (key.unexpected "variant identifier")

/-- The record of a role must end behind its only field. -/
def readEnd (left : Place) : Fields → Read Unit
  | .closed _ => pure ()
  | .field .. => throw (Json.Flaw.expectedValue.at left)
  | .broken b =>
    if b.fault.cause = .json .endInObject then throw b.fault
    else throw (Json.Flaw.expectedValue.at left)

/-- A scalar is a text, even if it is one without a value. -/
def isName : Read Head → Bool
  | .ok (.scalar (.text _)) => true
  | .ok _ => false
  | .error f => f.cause ≠ .json .numberOutOfRange

/-- Reads a role: its name, or a record with its name for the only field, which holds nothing. -/
def ofSource (room : Nat) : Source → Read ComponentType
  | .broken b => throw b.asVariant
  | .list spot _ => throw (Json.Flaw.expectedValue.at spot.deep)
  | .scalar spot value spelling blank =>
    if isName value then readName (.scalar spot value spelling blank)
    else throw (Json.Flaw.expectedValue.at spot.deep)
  | .record spot fields =>
    match room, fields with
    | 0, _ => throw ⟨.tooDeep, some spot.deep⟩
    | _ + 1, .closed place => throw (Json.Flaw.expectedValue.at place)
    | _ + 1, .broken b => throw b.asVariant
    | _ + 1, .field key _ value left rest => do
      let t ← readName key
      match value with
      | .scalar _ (.ok (.scalar .null)) _ _ => pure ()
      | _ => throw (value.unexpected "unit")
      readEnd left rest
      pure t

end ComponentType

namespace TypedIdentifier

def toDoc (i : TypedIdentifier) : Doc :=
  .named [("identifier", i.identifier.toDoc), ("componentType", i.type.toDoc)]

def form : Form TypedIdentifier where
  name := "struct TypedComponentIdentifier"
  fields := [
    ⟨"identifier", true, fun room s => do
      let i ← Identifier.form.read default room s
      pure fun t => { t with identifier := i }⟩,
    ⟨"componentType", true, fun room s => do
      let type ← ComponentType.ofSource room s
      pure fun t => { t with type }⟩]

end TypedIdentifier

namespace LocationPart

def toDoc (p : LocationPart) : Doc :=
  .named (("partPath", .text p.path) ::
    optionalField "partIdentifier" TypedIdentifier.toDoc p.identifier)

def form : Form LocationPart where
  name := "struct LocationPart"
  fields := [
    ⟨"partPath", true, fun _ s => do let t ← s.text; pure fun p => { p with path := t }⟩,
    ⟨"partIdentifier", false, fun room s => do
      let i ← s.optional (TypedIdentifier.form.read default room)
      pure fun p => { p with identifier := i }⟩]

end LocationPart

namespace ComponentLocation

def wordDoc (n : UInt32) : Doc := .scalar (.int (.ofWord n))

def toDoc (l : ComponentLocation) : Doc :=
  .named (("location", .text l.text) :: optionalField "fileName" Doc.text l.fileName ++
    optionalField "lineInFile" wordDoc l.line ++ optionalField "startColumn" wordDoc l.column ++
    [("parts", .list (l.parts.map LocationPart.toDoc))])

def form : Form ComponentLocation where
  name := "struct ComponentLocation"
  fields := [
    ⟨"location", true, fun _ s => do let t ← s.text; pure fun l => { l with text := t }⟩,
    ⟨"fileName", false, fun _ s => do
      let t ← s.optional Source.text
      pure fun l => { l with fileName := t }⟩,
    ⟨"lineInFile", false, fun _ s => do
      let n ← s.optional Source.word
      pure fun l => { l with line := n }⟩,
    ⟨"startColumn", false, fun _ s => do
      let n ← s.optional Source.word
      pure fun l => { l with column := n }⟩,
    ⟨"parts", false, fun room s => do
      let parts ← Source.listOf (LocationPart.form.read default) room s
      pure fun l => { l with parts }⟩]

end ComponentLocation

namespace QualifiedName

def toDoc (n : QualifiedName) : Doc :=
  .named [("namespace", .text n.namespace), ("local", .text n.local)]

def form : Form QualifiedName where
  name := "struct QualifiedName"
  fields := [
    ⟨"namespace", true, fun _ s => do let t ← s.text; pure fun n => { n with «namespace» := t }⟩,
    ⟨"local", true, fun _ s => do let t ← s.text; pure fun n => { n with «local» := t }⟩]

end QualifiedName

namespace Annotations

def toDoc (a : Annotations) : Doc :=
  .named [("entries", .list (a.entries.map fun e => .list [e.1.toDoc, e.2.toDoc]))]

def entryExpectation : String := "a tuple of size 2"

/-- Reads an annotation: the list of its name and its value. -/
def readEntry (room : Nat) (s : Source) : Read (QualifiedName × Datum) :=
  match s, room with
  | .list spot _, 0 => throw ⟨.tooDeep, some spot.deep⟩
  | .list _ items, room + 1 =>
    match items with
    | .closed place => throw (.misfit (.wrongLength 0 entryExpectation) place)
    | .broken b => throw b.fault
    | .item name left rest => do
      let name ← Read.settle left (QualifiedName.form.read default room name)
      match rest with
      | .closed place => throw (.misfit (.wrongLength 1 entryExpectation) place)
      | .broken b => throw b.fault
      | .item value left rest => do
        let value ← Read.settle left do (Datum.ofDoc (← value.content room)).toRead
        Form.readEnd left rest
        pure (name, value)
  | s, _ => throw (s.unexpected entryExpectation)

def form : Form Annotations where
  name := "struct Annotations"
  fields := [
    ⟨"entries", true, fun room s => do
      let entries ← Source.listOf readEntry room s
      pure fun a => { a with entries }⟩]

end Annotations

namespace LiveComponent

def toDoc (c : LiveComponent) : Doc :=
  .named (("annotations", c.annotations.toDoc) ::
    optionalField "location" ComponentLocation.toDoc c.location)

def form : Form LiveComponent where
  name := "struct AnnotatedComponent"
  fields := [
    ⟨"annotations", false, fun room s => do
      let a ← Annotations.form.read {} room s
      pure fun c => { c with annotations := a }⟩,
    ⟨"location", false, fun room s => do
      let l ← s.optional (ComponentLocation.form.read default room)
      pure fun c => { c with location := l }⟩]

end LiveComponent

end FlowArtifact
