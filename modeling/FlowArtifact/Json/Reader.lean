import FlowArtifact.Json.Lexeme

/-!
# Reading JSON

The lexemes of a text are put together to a `Source` by a machine that takes one lexeme at a time
and keeps a stack of the lists and records that are still open. The main operation is `Json.read`.
-/

namespace FlowArtifact.Json

def maxNesting : Nat := 127

def itemsBefore : List (Source × Place) → Items → Items
  | [], rest => rest
  | (s, left) :: done, rest => itemsBefore done (.item s left rest)

structure Field where
  key : Source
  keyed : Place
  value : Source
  left : Place

def fieldsBefore : List Field → Fields → Fields
  | [], rest => rest
  | f :: done, rest => fieldsBefore done (.field f.key f.keyed f.value f.left rest)

/-- A list or record that is open, with what was read of it from the last part. -/
inductive Frame where
  | list (spot : Spot) (done : List (Source × Place))
  /-- A record whose last key has no value yet. -/
  | record (spot : Spot) (done : List Field) (key : Source) (keyed : Place)

inductive Turn where
  /-- Nothing. -/
  | root
  /-- The end of a list without items. -/
  | first
  /-- Nothing: a comma stands before, and the item before it is still to be put down. -/
  | next (before : Source)
  /-- Nothing: a colon stands before. -/
  | field

inductive State where
  | value (turn : Turn) (stack : List Frame)
  | key (isFirst : Bool) (spot : Spot) (done : List Field) (stack : List Frame)
  | colon (spot : Spot) (done : List Field) (key : Source) (stack : List Frame)
  /-- A value was read. -/
  | behind (s : Source) (stack : List Frame)
  | finished (r : Reading)

def Frame.seal (b : Break) (inner : Source) : Frame → Source
  | .list spot done => .list spot (itemsBefore done (.item inner spot.place (.broken b)))
  | .record spot done key keyed =>
    .record spot (fieldsBefore done (.field key keyed inner spot.place (.broken b)))

def stop (b : Break) (inner : Source) (stack : List Frame) : State :=
  .finished ⟨stack.foldl (fun s f => f.seal b s) inner, none⟩

def Flaw.breakAt (flaw : Flaw) (p : Place) : Break := { fault := flaw.at p }

def Flaw.breakSkipped (flaw skipped : Flaw) (p : Place) : Break :=
  { fault := flaw.at p, skipped := skipped.at p }

namespace Lexeme

def spot (l : Lexeme) : Spot := { place := l.start, deep := l.peek }

def scalarSource (l : Lexeme) (value : Read Scalar) : Source :=
  .scalar { place := l.stop, deep := l.peek } (value.map .scalar) none false

/-- The fault of a lexeme that is read as the name of a variant and is no text. -/
def variantFault (l : Lexeme) : Fault :=
  let expected := "variant identifier"
  match l.kind with
  | .scalar (.ok s) => .misfit (.wrongType (.scalar s) expected) l.stop
  | .scalar (.error f) => f
  | .broken b _ => b.fault
  | .openList => .misfit (.wrongType .list expected) l.start
  | .openRecord => .misfit (.wrongType .record expected) l.start
  | .finish => Flaw.endInValue.at l.stop
  | _ => Flaw.expectedValue.at l.peek

end Lexeme

def valueStep (turn : Turn) (stack : List Frame) (l : Lexeme) : State :=
  let broken (b : Break) : State := stop b (.broken b) stack
  /- The list at hand breaks off without another item. -/
  let brokenList (b : Break) : State :=
    match stack with
    | .list spot done :: stack => stop b (.list spot (itemsBefore done (.broken b))) stack
    | _ => broken b
  match l.kind with
  | .text v => .behind (l.scalarSource (v.map .text)) stack
  | .scalar v => .behind (l.scalarSource v) stack
  | .openList => .value .first (.list l.spot [] :: stack)
  | .openRecord => .key true l.spot [] stack
  | .broken b isText =>
    broken (if isText then b else { b with asVariant := Flaw.expectedValue.at l.peek })
  | .closeList =>
    match turn, stack with
    | .first, .list spot done :: stack =>
      .behind (.list spot (itemsBefore done (.closed l.stop))) stack
    | .next _, _ => brokenList (Flaw.trailingComma.breakSkipped .expectedValue l.peek)
    | _, _ => broken (Flaw.expectedValue.breakAt l.peek)
  | .finish =>
    match turn with
    | .first => brokenList (Flaw.endInList.breakAt l.stop)
    | .next _ => brokenList (Flaw.endInValue.breakAt l.stop)
    | _ => broken (Flaw.endInValue.breakAt l.stop)
  | _ => broken (Flaw.expectedValue.breakAt l.peek)

def keyStep (isFirst : Bool) (spot : Spot) (done : List Field) (stack : List Frame) (l : Lexeme) :
    State :=
  let broken (b : Break) : State :=
    stop b (.record spot (fieldsBefore done
      (.broken { b with asVariant := l.variantFault }))) stack
  match l.kind with
  | .text v => .colon spot done (l.scalarSource (v.map .text)) stack
  | .broken b true => broken b
  | .closeRecord =>
    if isFirst then .behind (.record spot (fieldsBefore done (.closed l.stop))) stack
    else broken (Flaw.trailingComma.breakSkipped .keyMustBeText l.peek)
  | .finish =>
    if isFirst then broken (Flaw.endInObject.breakAt l.stop)
    else broken (Flaw.endInValue.breakSkipped .endInObject l.stop)
  | _ => broken (Flaw.keyMustBeText.breakAt l.peek)

def colonStep (spot : Spot) (done : List Field) (key : Source) (stack : List Frame) (l : Lexeme) :
    State :=
  let keyed : Place := match l.kind with
    | .closeRecord => l.stop
    | _ => l.start
  let broken (b : Break) : State := stop b (.broken b) (.record spot done key keyed :: stack)
  match l.kind with
  | .colon => .value .field (.record spot done key keyed :: stack)
  | .finish => broken (Flaw.endInObject.breakAt l.stop)
  | _ => broken (Flaw.expectedColon.breakAt l.peek)

def behindStep (s : Source) (stack : List Frame) (l : Lexeme) : State :=
  match stack with
  | [] =>
    match l.kind with
    | .finish => .finished ⟨s, none⟩
    | _ => .finished ⟨s, some (Flaw.trailingCharacters.at l.peek)⟩
  | .list spot done :: rest =>
    let broken (flaw : Flaw) : State :=
      let b := flaw.breakAt l.peek
      stop b (.list spot (itemsBefore ((s, l.start) :: done) (.broken b))) rest
    match l.kind with
    | .closeList =>
      .behind (.list spot (itemsBefore ((s, l.stop) :: done) (.closed l.stop))) rest
    | .comma => .value (.next s) stack
    | .finish => broken .endInList
    | _ => broken .expectedListCommaOrEnd
  | .record spot done key keyed :: rest =>
    let broken (flaw : Flaw) : State :=
      let b := flaw.breakAt l.peek
      stop b (.record spot (fieldsBefore (⟨key, keyed, s, l.start⟩ :: done) (.broken b))) rest
    match l.kind with
    | .closeRecord =>
      .behind (.record spot (fieldsBefore (⟨key, keyed, s, l.stop⟩ :: done) (.closed l.stop))) rest
    | .comma => .key false spot (⟨key, keyed, s, l.start⟩ :: done) rest
    | .finish => broken .endInObject
    | _ => broken .expectedObjectCommaOrEnd

def step (st : State) (l : Lexeme) : State :=
  match st with
  | .value (.next before) (.list spot done :: stack) =>
    valueStep (.next before) (.list spot ((before, l.start) :: done) :: stack) l
  | .value turn stack => valueStep turn stack l
  | .key isFirst spot done stack => keyStep isFirst spot done stack l
  | .colon spot done key stack => colonStep spot done key stack l
  | .behind s stack => behindStep s stack l
  | .finished r => .finished r

def State.reading : State → Reading
  | .finished r => r
  | .behind s [] => ⟨s, none⟩
  | _ => ⟨.broken (Flaw.endInValue.breakAt .origin), none⟩

def read (text : String) : Reading :=
  ((lexemes text).foldl step (.value .root [])).reading

def layout : Double.Layout := ⟨Double.usual, "+"⟩

def wording : Wording where
  null := "null"
  real := Double.text layout
  omitsStart := false

end FlowArtifact.Json
