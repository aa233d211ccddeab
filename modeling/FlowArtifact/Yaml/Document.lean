import FlowArtifact.Yaml.Event

/-!
# Documents of a YAML text

Only the first document of a text is read. Its events become pieces in which every alias is known by
the number of its anchor. The number of an anchor is the count of the names that anchors had before
it; where two anchors share a number, the later one stands for both.
-/

namespace FlowArtifact.Yaml

inductive Piece where
  | alias (m : Mark) (anchor : Nat)
  | scalar (m : Mark) (tag : Option Uri) (text : String) (isPlain : Bool)
  | listStart (m : Mark) (tag : Option Uri)
  | listEnd
  | recordStart (m : Mark) (tag : Option Uri)
  | recordEnd
  /-- The whole of an empty text. -/
  | nothing (m : Mark)

structure Pieces where
  pieces : List Piece := []
  /-- The numbers of anchors with the pieces from the anchored one on. -/
  anchored : List (Nat × List Piece) := []
  /-- What the document breaks off with, if it does. -/
  problem : Option Problem := none
  /-- Something stands behind the document. -/
  hasMore : Bool := false

namespace Pieces

/-- The number of a new anchor: the names so far, each once. -/
def anchorNumber (names : List (String × Nat)) : Nat := names.length

def addName (names : List (String × Nat)) (name : String) : List (String × Nat) :=
  (name, anchorNumber names) :: names.filter (·.1 ≠ name)

def add (piece : Piece) (number : Option Nat) (d : Pieces) : Pieces :=
  let pieces := piece :: d.pieces
  { d with
    pieces
    anchored := match number with
      | some n => d.anchored ++ [(n, pieces)]
      | none => d.anchored }

def ofEventsFrom (ending : Option Problem) (names : List (String × Nat)) : List Event → Pieces
  | [] => { problem := some (ending.getD .endOfStream) }
  | e :: rest =>
    let anchored (p : Properties) (piece : Piece) : Pieces :=
      match p.anchor with
      | some name => (ofEventsFrom ending (addName names name) rest).add piece
          (some (anchorNumber names))
      | none => (ofEventsFrom ending names rest).add piece none
    match e with
    | .documentStart => ofEventsFrom ending names rest
    | .documentEnd =>
      { hasMore := match rest with
          | .streamEnd _ :: _ => false
          | _ => true }
    | .streamEnd m => { pieces := [.nothing m] }
    | .alias m name =>
      match names.lookup name with
      | some n => (ofEventsFrom ending names rest).add (.alias m n) none
      | none => { problem := some (.unknownAnchor m) }
    | .scalar m p text isPlain => anchored p (.scalar m p.tag text isPlain)
    | .listStart m p => anchored p (.listStart m p.tag)
    | .listEnd => (ofEventsFrom ending names rest).add .listEnd none
    | .recordStart m p => anchored p (.recordStart m p.tag)
    | .recordEnd => (ofEventsFrom ending names rest).add .recordEnd none

def ofEvents (events : List Event) (problem : Option Problem) : Pieces :=
  ofEventsFrom problem [] events

end Pieces

end FlowArtifact.Yaml
