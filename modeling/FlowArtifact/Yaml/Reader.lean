import FlowArtifact.Source
import FlowArtifact.Yaml.Document
import FlowArtifact.Yaml.Event.Stream
import FlowArtifact.Yaml.Resolution
import FlowArtifact.Yaml.Token.Stream

/-!
# Reading YAML

A text is cut into tokens, the tokens are put together to events, and the pieces of the first
document become a `Source` in which every alias is replaced by what it stands for. A document may
repeat itself only so often, and it is not followed deeper than it can be read. The main operation
is `Yaml.read`.
-/

namespace FlowArtifact.Yaml

def maxNesting : Nat := 128

/-! ## Characters -/

def isAllowed (c : Char) : Bool :=
  let n := c.toNat
  n = 0x09 || n = 0x0A || n = 0x0D || (0x20 ≤ n && n ≤ 0x7E) || n = 0x85 ||
    (0xA0 ≤ n && n ≤ 0xD7FF) || (0xE000 ≤ n && n ≤ 0xFFFD) || 0x10000 ≤ n

/-- The bytes of a text that are looked at together. -/
def portion : Nat := 16384

/-- The characters that can be read, and what the text breaks off with. A character that is not
allowed takes its whole portion of the text with it. `taken` are the characters of the portion at
hand from the last one, `size` their bytes, and `offset` the bytes before. -/
def readable (taken : List Char) (size offset : Nat) : List Char → List Char × Option Problem
  | [] => (taken.reverse, none)
  | c :: rest =>
    let isFull := portion < size + c.utf8Size
    let before := if isFull then taken.reverse else []
    if !isAllowed c then
      (before, some (.badText "control characters are not allowed" offset {} none))
    else
      let (others, problem) :=
        if isFull then readable [c] c.utf8Size (offset + c.utf8Size) rest
        else readable (c :: taken) (size + c.utf8Size) (offset + c.utf8Size) rest
      (before ++ others, problem)

/-! ## Sources -/

def Mark.place (m : Mark) (path : String) : Place := ⟨m.line + 1, m.column + 1, path⟩

def Problem.fault (p : Problem) : Fault := ⟨.yaml p, p.mark?.map (·.place ".")⟩

def Problem.asBreak (p : Problem) : Break := { fault := p.fault }

/-- A tag of its own: one that begins with its sign and is a text. -/
def isOwnTag (tag : Option Uri) : Bool :=
  tag.any fun t => t.hasSign && t.isText

def demand (place : Place) (text expected : String) (value : Option Head) : Read Head :=
  match value with
  | some h => pure h
  | none => throw (.misfit (.wrongValue (.scalar (.text text)) expected) place)

def scalarValue (place : Place) (tag : Option Uri) (text : String) (isPlain : Bool) : Read Head :=
  let untagged := if isPlain then resolve text else .scalar (.text text)
  match tag with
  | none => pure untagged
  | some t =>
    if t = .ofAscii "tag:yaml.org,2002:bool" then
      demand place text "a boolean" ((bool? text).map fun b => .scalar (.bool b))
    else if t = .ofAscii "tag:yaml.org,2002:int" then
      demand place text "an integer" (integerHead? text.toList)
    else if t = .ofAscii "tag:yaml.org,2002:float" then
      demand place text "a float" ((double? text).map fun x => .scalar (.real x))
    else if t = .ofAscii "tag:yaml.org,2002:null" then
      demand place text "null" (if isNull text then some (.scalar .null) else none)
    else if t.hasSign then pure untagged
    else pure (.scalar (.text text))

def fieldPath (path : Option String) (key : String) : String :=
  match path with
  | none => key
  | some p => p ++ "." ++ key

def itemPath (path : Option String) (i : Nat) : String := path.getD "." ++ s!"[{i}]"

def keyName : List Piece → String
  | .scalar _ _ text _ :: _ => text
  | _ => "?"

/-- What does not change while a document is put together. -/
structure Outline where
  anchored : List (Nat × List Piece)
  ending : Break
  /-- How often aliases may be followed. -/
  limit : Nat

/-- The pieces behind a part and how often aliases were followed, unless the text broke. -/
abbrev Rest := Option (List Piece × Nat)

mutual
/-- The node that begins with the given pieces, `followed` aliases behind the beginning. -/
def node (o : Outline) (room : Nat) (path : Option String) (ps : List Piece) (followed : Nat) :
    Nat → Source × Rest
  | 0 => (.broken o.ending, none)
  | fuel + 1 =>
    let spot (m : Mark) (tag : Option Uri) : Spot :=
      { place := m.place (path.getD "."), deep := m.place ".", tagged := isOwnTag tag }
    match ps with
    | .alias _ n :: rest =>
      if o.limit < followed + 1 then (.broken Problem.tooManyRepeats.asBreak, none)
      else
        match o.anchored.lookup n with
        | none => (.broken o.ending, none)
        | some target =>
          let (s, behind) := node o room (some (path.getD ".")) target (followed + 1) fuel
          (s, behind.map fun b => (rest, b.2))
    | .scalar m tag text isPlain :: rest =>
      let spot := spot m tag
      (.scalar spot (scalarValue spot.place tag text isPlain) (some text) (isPlain && text = ""),
        some (rest, followed))
    | .nothing m :: rest =>
      (.scalar (spot m none) (.ok (.scalar .null)) none true, some (rest, followed))
    | .listStart m tag :: rest =>
      let spot := spot m tag
      match room with
      | 0 => (.list spot (.broken o.ending), none)
      | room + 1 =>
        let (items, behind) := nodeItems o room path spot.place 0 rest followed fuel
        (.list spot items, behind)
    | .recordStart m tag :: rest =>
      let spot := spot m tag
      match room with
      | 0 => (.record spot (.broken o.ending), none)
      | room + 1 =>
        let (fields, behind) := nodeFields o room path spot.place rest followed fuel
        (.record spot fields, behind)
    | _ => (.broken o.ending, none)
termination_by structural fuel => fuel

def nodeItems (o : Outline) (room : Nat) (path : Option String) (place : Place) (i : Nat)
    (ps : List Piece) (followed : Nat) : Nat → Items × Rest
  | 0 => (.broken o.ending, none)
  | fuel + 1 =>
    match ps with
    | [] => (.broken o.ending, none)
    | .listEnd :: rest => (.closed place, some (rest, followed))
    | ps =>
      match node o room (some (itemPath path i)) ps followed fuel with
      | (s, none) => (.item s place (.broken o.ending), none)
      | (s, some (rest, followed)) =>
        let (items, behind) := nodeItems o room path place (i + 1) rest followed fuel
        (.item s place items, behind)
termination_by structural fuel => fuel

def nodeFields (o : Outline) (room : Nat) (path : Option String) (place : Place)
    (ps : List Piece) (followed : Nat) : Nat → Fields × Rest
  | 0 => (.broken o.ending, none)
  | fuel + 1 =>
    match ps with
    | [] => (.broken o.ending, none)
    | .recordEnd :: rest => (.closed place, some (rest, followed))
    | ps =>
      let name := keyName ps
      match node o room path ps followed fuel with
      | (key, none) => (.field key place (.broken o.ending) place (.broken o.ending), none)
      | (key, some (rest, followed)) =>
        match node o room (some (fieldPath path name)) rest followed fuel with
        | (s, none) => (.field key place s place (.broken o.ending), none)
        | (s, some (rest, followed)) =>
          let (fields, behind) := nodeFields o room path place rest followed fuel
          (.field key place s place fields, behind)
termination_by structural fuel => fuel
end

def Pieces.reading (d : Pieces) : Reading :=
  let n := d.pieces.length
  let o : Outline :=
    { anchored := d.anchored
      ending := (d.problem.getD .endOfStream).asBreak
      limit := 100 * n }
  { root := (node o maxNesting none d.pieces 0 (3 * (100 * n + 1) * (n + 1))).1
    tail := (d.problem.or (if d.hasMore then some .manyDocuments else none)).map Problem.fault }

def readChars (text : List Char) : Reading :=
  let (chars, broken) := readable [] 0 0 text
  let (tokens, problem) := Token.ofChars chars broken
  let (events, problem) := Event.ofTokens tokens problem
  (Pieces.ofEvents events problem).reading

def read (text : String) : Reading := readChars text.toList

end FlowArtifact.Yaml
