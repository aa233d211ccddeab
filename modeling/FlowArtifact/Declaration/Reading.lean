import FlowArtifact.Declaration.Document
import FlowArtifact.Source

/-!
# Reading artifacts from sources

The root of an artifact, the list of its elements and the kind of each element are read straight
from the text, so a misfit there wins over anything behind it. What else an element holds is taken
as a whole before it is looked at, and so are the attributes of the artifact.
-/

namespace FlowArtifact

namespace GlobalElement

def readKind (s : Source) : Read Kind :=
  match s.asText?, s with
  | some name, .scalar spot _ _ _ => (Kind.ofName name).toRead.settle spot.place
  | _, _ => throw (s.unexpected "variant identifier")

def readKey (room : Nat) : Source → Read Head
  | .scalar ⟨place, _, false⟩ (.ok (.wide n)) _ _ =>
    throw (.misfit (.wrongType (.wide n) "a type tag `kind` or any other value") place)
  | s => do pure (← s.content room).head

def kindKey : Head := .scalar (.text "kind")

/-- The kind of an element and its other fields, from the last one. -/
def readFields (room : Nat) (kind : Option Kind) (done : List (Head × Doc)) :
    Fields → Read (Kind × List (Head × Doc))
  | .closed place =>
    match kind with
    | some k => pure (k, done)
    | none => throw (.misfit (.missing "kind") place)
  | .broken b => throw b.fault
  | .field key keyed value left rest => do
    let head ← readKey room key
    if head = kindKey then
      match kind with
      | some _ => throw (.misfit (.duplicate "kind") keyed)
      | none =>
        let k ← (readKind value).settle left
        readFields room (some k) done rest
    else
      let d ← value.content room
      readFields room kind ((head, d) :: done) rest

def expectation : String := "internally tagged enum GlobalElementDeclaration"

/-- An element, which may have `room` levels of lists and records. -/
def ofSource (room : Nat) (s : Source) : Read GlobalElement :=
  match s with
  | .broken b => throw b.fault
  | .scalar spot _ _ _ =>
    if spot.tagged then throw (.misfit (.wrongType .tagged expectation) spot.place)
    else throw (s.unexpected expectation)
  | .list spot items =>
    if spot.tagged then throw (.misfit (.wrongType .tagged expectation) spot.place)
    else
      match room, items with
      | 0, _ => throw ⟨.tooDeep, some spot.deep⟩
      | _ + 1, .closed place => throw (.misfit (.missing "kind") place)
      | _ + 1, .broken b => throw b.fault
      | room + 1, .item first left rest => do
        let kind ← (readKind first).settle left
        let docs ← Source.contentItems room rest
        (ofContent kind (.list docs)).toRead
  | .record spot fields =>
    if spot.tagged then throw (.misfit (.wrongType .tagged expectation) spot.place)
    else
      match room with
      | 0 => throw ⟨.tooDeep, some spot.deep⟩
      | room + 1 => do
        let (kind, done) ← readFields room none [] fields
        (ofContent kind (.record done.reverse)).toRead

def ofItems (room : Nat) : Items → Read (List GlobalElement)
  | .closed _ => pure []
  | .broken b => throw b.fault
  | .item s left rest => do
    let e ← (ofSource room s).settle left
    let es ← ofItems room rest
    pure (e :: es)

/-- The elements of an artifact; nothing at all stands for the empty list. -/
def listOfSource (room : Nat) (s : Source) : Read (List GlobalElement) :=
  match s with
  | .list spot items =>
    match room with
    | 0 => throw ⟨.tooDeep, some spot.deep⟩
    | room + 1 => ofItems room items
  | .scalar _ _ _ true => pure []
  | s => throw (s.unexpected "a sequence")

end GlobalElement

namespace Artifact

/-- The artifact of the fields read so far, the others from the last one. -/
def finish (place : Place) (elements : Option (List GlobalElement))
    (others : List (Head × Doc)) : Read Artifact := do
  let attributes ← (Attributes.ofFields others.reverse).toRead.settle place
  pure ⟨attributes, elements.getD []⟩

def readFields (room : Nat) (elements : Option (List GlobalElement))
    (others : List (Head × Doc)) : Fields → Read Artifact
  | .closed place => finish place elements others
  | .broken b => throw b.fault
  | .field key keyed value left rest =>
    match key.asText? with
    | none => throw (key.unexpected "field identifier")
    | some name =>
      if name = "globalElements" then
        match elements with
        | some _ => throw (.misfit (.duplicate "globalElements") keyed)
        | none => do
          let es ← (GlobalElement.listOfSource room value).settle left
          readFields room (some es) others rest
      else do
        let d ← value.content room
        readFields room elements ((.scalar (.text name), d) :: others) rest

def ofSource (room : Nat) (s : Source) : Read Artifact :=
  match s with
  | .record spot fields =>
    match room with
    | 0 => throw ⟨.tooDeep, some spot.deep⟩
    | room + 1 => readFields room none [] fields
  | .scalar spot _ _ true => finish spot.place none []
  | s => throw (s.unexpected "struct ArtifactDeclaration")

end Artifact

end FlowArtifact
