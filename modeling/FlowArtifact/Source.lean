import FlowArtifact.Fault

/-!
# Documents with places

A `Source` is a document as it stands in its text: each part knows the place at which faults about
it are reported. The reading of a text goes on until the text breaks, and a source ends there with
what broke it; so a reader that goes through a source in order meets a misfit before the break
first, and the break before anything behind it.

The main operation is `Source.content`, which takes a whole part as a `Doc` or gives its first
fault.
-/

namespace FlowArtifact

/-- A fault that ends the reading of a text. The same flaw is worded in another way where the text
is only skipped, and where the name of a variant was to come. -/
structure Break where
  fault : Fault
  skipped : Fault := fault
  asVariant : Fault := fault

/-- Where a part of a document is reported: faults about it as a whole at `place`, too deep nesting
at `deep`. A tagged part has a tag of its own and is no plain content. -/
structure Spot where
  place : Place
  deep : Place := place
  tagged : Bool := false

mutual
inductive Source where
  /-- A scalar; how it is spelled when any spelling may stand for a text, and whether it is
  nothing at all. -/
  | scalar (spot : Spot) (value : Read Head) (spelling : Option String) (blank : Bool)
  | list (spot : Spot) (items : Items)
  | record (spot : Spot) (fields : Fields)
  | broken (b : Break)

/-- The items of a list, up to its end or to the break of the text. A fault that leaves an item
without a place is reported at `left`. -/
inductive Items where
  | closed (place : Place)
  | broken (b : Break)
  | item (s : Source) (left : Place) (rest : Items)

/-- The fields of a record, up to its end or to the break of the text. A fault that arises behind a
key is reported at `keyed`, one that leaves the value without a place at `left`. -/
inductive Fields where
  | closed (place : Place)
  | broken (b : Break)
  | field (key : Source) (keyed : Place) (value : Source) (left : Place) (rest : Fields)
end

namespace Source

mutual
/-- The content of a source, which may have `room` levels of lists and records. -/
def content (room : Nat) : Source → Read Doc
  | .scalar spot value _ _ =>
    if spot.tagged then throw (.misfit .tagInContent spot.place)
    else do
      match ← value with
      | .scalar s => pure (.scalar s)
      | .minusZero => pure .minusZero
      | head => throw (.misfit (.wrongType head "any value") spot.place)
  | .list spot items =>
    if spot.tagged then throw (.misfit .tagInContent spot.place)
    else
      match room with
      | 0 => throw ⟨.tooDeep, some spot.deep⟩
      | room + 1 => do pure (.list (← contentItems room items))
  | .record spot fields =>
    if spot.tagged then throw (.misfit .tagInContent spot.place)
    else
      match room with
      | 0 => throw ⟨.tooDeep, some spot.deep⟩
      | room + 1 => do pure (.record (← contentFields room fields))
  | .broken b => throw b.fault

def contentItems (room : Nat) : Items → Read (List Doc)
  | .closed _ => pure []
  | .broken b => throw b.fault
  | .item s _ rest => do
    let d ← s.content room
    let ds ← contentItems room rest
    pure (d :: ds)

def contentFields (room : Nat) : Fields → Read (List (Head × Doc))
  | .closed _ => pure []
  | .broken b => throw b.fault
  | .field key _ value _ rest => do
    let k ← key.content room
    let d ← value.content room
    let ds ← contentFields room rest
    pure ((k.head, d) :: ds)
end

mutual
def skip : Source → Read Unit
  | .scalar .. => pure ()
  | .list _ items => skipItems items
  | .record _ fields => skipFields fields
  | .broken b => throw b.skipped

def skipItems : Items → Read Unit
  | .closed _ => pure ()
  | .broken b => throw b.skipped
  | .item s _ rest => do
    s.skip
    skipItems rest

def skipFields : Fields → Read Unit
  | .closed _ => pure ()
  | .broken b => throw b.skipped
  | .field key _ value _ rest => do
    key.skip
    value.skip
    skipFields rest
end

def unexpected (expected : String) : Source → Fault
  | .scalar spot value _ _ =>
    match value with
    | .ok head => .misfit (.wrongType head expected) spot.place
    | .error f => f
  | .list spot _ => .misfit (.wrongType .list expected) spot.place
  | .record spot _ => .misfit (.wrongType .record expected) spot.place
  | .broken b => b.fault

/-- The text that a source is, however it is spelled. -/
def asText? : Source → Option String
  | .scalar _ _ (some s) _ => some s
  | .scalar _ (.ok (.scalar (.text s))) none _ => some s
  | _ => none

end Source

/-- A text that was read: its document, and what stands behind the document and should not. -/
structure Reading where
  root : Source
  tail : Option Fault

/-- Reads a whole text: what follows the document is looked at last. -/
def Reading.take {α : Type} (r : Reading) (read : Source → Read α) : Read α := do
  let a ← read r.root
  match r.tail with
  | none => pure a
  | some f => throw f

end FlowArtifact
