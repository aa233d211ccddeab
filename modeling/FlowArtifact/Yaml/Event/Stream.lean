import FlowArtifact.Yaml.Event

/-!
# The events of a text

The tokens of a text are read by what is to come next: a goal, and behind it the goals of the lists
and records that are still open. Each step gives one event. The main operation is `Event.ofTokens`,
which gives the events up to the end or to the first problem.
-/

namespace FlowArtifact.Yaml

/-- What is to come next. A list or record knows where it began. -/
inductive Goal where
  | document (isFirst : Bool)
  /-- The root of a document that begins with it. -/
  | root
  /-- The root of a document behind the line that begins the document. -/
  | documentContent
  | documentEnd
  | blockItem (start : Mark)
  /-- An item of a list that stands as deep as the record around it. -/
  | alignedItem
  | blockKey (start : Mark)
  | blockValue (start : Mark)
  | flowItem (start : Mark) (isFirst : Bool)
  /-- A record of a single field, written as an item. -/
  | pairKey (start : Mark)
  | pairValue (start : Mark)
  | pairEnd (start : Mark)
  | flowKey (start : Mark) (isFirst : Bool)
  | flowValue (start : Mark)
  /-- The value of a key without a colon. -/
  | noValue (start : Mark)

structure Grammar where
  goal : Goal := .document true
  stack : List Goal := []
  /-- The handles of tags and what they stand for. -/
  handles : List (String × Uri) := []

namespace Grammar

abbrev Step := Scan (Event × Grammar × List Token)

/-- The next token; without one the text ended with a problem. -/
def front (ending : Problem) : List Token → Scan Token
  | [] => throw ending
  | t :: _ => pure t

def leave (g : Grammar) : Grammar :=
  match g.stack with
  | goal :: stack => { g with goal, stack }
  | [] => g

def enter (g : Grammar) (goal : Goal) : Grammar := { g with stack := goal :: g.stack }

def turn (g : Grammar) (goal : Goal) : Grammar := { g with goal }

/-- A scalar that is not written. -/
def emptyScalar (m : Mark) : Event := .scalar m {} "" true

/-! ## Nodes -/

/-- What stands in front of a node: an anchor and a tag in either order, each with its mark. -/
def properties (ending : Problem) (ts : List Token) :
    Scan (Option (String × Mark) × Option (WrittenTag × Mark) × List Token) := do
  let t ← front ending ts
  match t.kind with
  | .anchor a =>
    let ts := ts.drop 1
    let u ← front ending ts
    match u.kind with
    | .tag w =>
      let ts := ts.drop 1
      let _ ← front ending ts
      pure (some (a, t.start), some (w, u.start), ts)
    | _ => pure (some (a, t.start), none, ts)
  | .tag w =>
    let ts := ts.drop 1
    let u ← front ending ts
    match u.kind with
    | .anchor a =>
      let ts := ts.drop 1
      let _ ← front ending ts
      pure (some (a, u.start), some (w, t.start), ts)
    | _ => pure (none, some (w, t.start), ts)
  | _ => pure (none, none, ts)

def resolveTag (g : Grammar) (start : Mark) (w : WrittenTag) (m : Mark) : Scan Uri :=
  if w.handle = "" then pure w.suffix
  else
    match g.handles.lookup w.handle with
    | some stem => pure (stem.append w.suffix)
    | none => throw (.within "while parsing a node" start "found undefined tag handle" m)

/-- Reads a node, which may be a block, or a list as deep as the record around it. -/
def node (isBlock mayAlign : Bool) (g : Grammar) (ending : Problem) (ts : List Token) : Step := do
  let t ← front ending ts
  match t.kind with
  | .alias name => pure (.alias t.start name, g.leave, ts.drop 1)
  | _ =>
    let start := t.start
    let (anchor, written, ts) ← properties ending ts
    let t ← front ending ts
    let tag ← match written with
      | some (w, m) => do pure (some (← g.resolveTag start w m))
      | none => pure none
    let p : Properties := ⟨anchor.map (·.1), tag⟩
    let rest := ts.drop 1
    match t.kind, isBlock with
    | .blockEntry, _ =>
      if mayAlign then pure (.listStart start p, g.turn .alignedItem, ts)
      else nodeEnd g start p t ts
    | .scalar text isPlain, _ => pure (.scalar start p text isPlain, g.leave, rest)
    | .flowListStart, _ => pure (.listStart start p, g.turn (.flowItem t.start true), rest)
    | .flowRecordStart, _ => pure (.recordStart start p, g.turn (.flowKey t.start true), rest)
    | .blockListStart, true => pure (.listStart start p, g.turn (.blockItem t.start), rest)
    | .blockRecordStart, true => pure (.recordStart start p, g.turn (.blockKey t.start), rest)
    | _, _ => nodeEnd g start p t ts
where
  /- There is no content: the node is a scalar that is not written, if it is there at all. -/
  nodeEnd (g : Grammar) (start : Mark) (p : Properties) (t : Token) (ts : List Token) : Step :=
    if p.anchor.isSome || p.tag.isSome then pure (.scalar start p "" true, g.leave, ts)
    else
      throw (.within (if isBlock then "while parsing a block node" else "while parsing a flow node")
        start "did not find expected node content" t.start)

/-! ## Documents -/

def usualHandles : List (String × Uri) :=
  [("!", .ofAscii "!"), ("!!", .ofAscii "tag:yaml.org,2002:")]

def directives (ending : Problem) (hasVersion : Bool) (handles : List (String × Uri)) :
    List Token → Scan (List (String × Uri) × List Token)
  | [] => throw ending
  | t :: rest =>
    match t.kind with
    | .version major minor =>
      if hasVersion then throw (.plain "found duplicate %YAML directive" t.start)
      else if major = 1 ∧ (minor = 1 ∨ minor = 2) then directives ending true handles rest
      else throw (.plain "found incompatible YAML document" t.start)
    | .tagHandle handle stem =>
      if (handles.lookup handle).isSome then
        throw (.plain "found duplicate %TAG directive" t.start)
      else directives ending hasVersion (handles ++ [(handle, stem)]) rest
    | _ => pure (handles ++ usualHandles, t :: rest)

def document (g : Grammar) (isFirst : Bool) (ending : Problem) (ts : List Token) : Step := do
  let ts := if isFirst then ts else ts.dropWhile (·.kind = .documentEnd)
  let t ← front ending ts
  match t.kind with
  | .streamEnd => pure (.streamEnd t.start, g, ts)
  | .version .. | .tagHandle .. | .documentStart => explicit ts
  | _ =>
    if isFirst then
      pure (.documentStart, ⟨.root, [.documentEnd], usualHandles⟩, ts)
    else explicit ts
where
  explicit (ts : List Token) : Step := do
    let (handles, ts) ← directives ending false [] ts
    let t ← front ending ts
    if t.kind ≠ .documentStart then
      throw (.plain "did not find expected <document start>" t.start)
    pure (.documentStart, ⟨.documentContent, [.documentEnd], handles⟩, ts.drop 1)

/-- The root of a document, which may be left out. -/
def documentContent (g : Grammar) (ending : Problem) (ts : List Token) : Step := do
  let t ← front ending ts
  match t.kind with
  | .version .. | .tagHandle .. | .documentStart | .documentEnd | .streamEnd =>
    pure (emptyScalar t.start, g.leave, ts)
  | _ => node true false g ending ts

def documentEnd (g : Grammar) (ending : Problem) (ts : List Token) : Step := do
  let t ← front ending ts
  pure (.documentEnd, g.turn (.document false),
    if t.kind = .documentEnd then ts.drop 1 else ts)

/-! ## Blocks -/

def blockItem (g : Grammar) (start : Mark) (ending : Problem) (ts : List Token) : Step := do
  let t ← front ending ts
  match t.kind with
  | .blockEntry =>
    let rest := ts.drop 1
    let u ← front ending rest
    match u.kind with
    | .blockEntry | .blockEnd => pure (emptyScalar t.stop, g, rest)
    | _ => node true false (g.enter (.blockItem start)) ending rest
  | .blockEnd => pure (.listEnd, g.leave, ts.drop 1)
  | _ =>
    throw (.within "while parsing a block collection" start
      "did not find expected '-' indicator" t.start)

def alignedItem (g : Grammar) (ending : Problem) (ts : List Token) : Step := do
  let t ← front ending ts
  match t.kind with
  | .blockEntry =>
    let rest := ts.drop 1
    let u ← front ending rest
    match u.kind with
    | .blockEntry | .key | .value | .blockEnd => pure (emptyScalar t.stop, g, rest)
    | _ => node true false (g.enter .alignedItem) ending rest
  | _ => pure (.listEnd, g.leave, ts)

/-- A key or value of a block behind its sign; it may be left out. -/
def blockPart (g : Grammar) (next : Goal) (sign : Token) (ending : Problem) (rest : List Token) :
    Step := do
  let u ← front ending rest
  match u.kind with
  | .key | .value | .blockEnd => pure (emptyScalar sign.stop, g.turn next, rest)
  | _ => node true true (g.enter next) ending rest

def blockKey (g : Grammar) (start : Mark) (ending : Problem) (ts : List Token) : Step := do
  let t ← front ending ts
  match t.kind with
  | .key => blockPart g (.blockValue start) t ending (ts.drop 1)
  | .blockEnd => pure (.recordEnd, g.leave, ts.drop 1)
  | _ =>
    throw (.within "while parsing a block mapping" start "did not find expected key" t.start)

def blockValue (g : Grammar) (start : Mark) (ending : Problem) (ts : List Token) : Step := do
  let t ← front ending ts
  match t.kind with
  | .value => blockPart g (.blockKey start) t ending (ts.drop 1)
  | _ => pure (emptyScalar t.start, g.turn (.blockKey start), ts)

/-! ## Flows -/

/-- Passes over the comma in front of all items but the first. -/
def comma (isFirst : Bool) (construct : String) (start : Mark) (what : String) (stop : Token.Kind)
    (ending : Problem) (ts : List Token) : Scan (List Token) := do
  let t ← front ending ts
  if isFirst || t.kind = stop then pure ts
  else if t.kind = .flowEntry then do
    let _ ← front ending (ts.drop 1)
    pure (ts.drop 1)
  else throw (.within construct start what t.start)

def flowItem (g : Grammar) (start : Mark) (isFirst : Bool) (ending : Problem) (ts : List Token) :
    Step := do
  let ts ← comma isFirst "while parsing a flow sequence" start
    "did not find expected ',' or ']'" .flowListEnd ending ts
  let t ← front ending ts
  match t.kind with
  | .flowListEnd => pure (.listEnd, g.leave, ts.drop 1)
  | .key => pure (.recordStart t.start {}, g.turn (.pairKey start), ts.drop 1)
  | _ => node false false (g.enter (.flowItem start false)) ending ts

def pairKey (g : Grammar) (start : Mark) (ending : Problem) (ts : List Token) : Step := do
  let t ← front ending ts
  match t.kind with
  | .value | .flowEntry | .flowListEnd =>
    pure (emptyScalar t.stop, g.turn (.pairValue start), ts.drop 1)
  | _ => node false false (g.enter (.pairValue start)) ending ts

def pairValue (g : Grammar) (start : Mark) (ending : Problem) (ts : List Token) : Step := do
  let t ← front ending ts
  match t.kind with
  | .value =>
    let rest := ts.drop 1
    let u ← front ending rest
    match u.kind with
    | .flowEntry | .flowListEnd => pure (emptyScalar u.start, g.turn (.pairEnd start), rest)
    | _ => node false false (g.enter (.pairEnd start)) ending rest
  | _ => pure (emptyScalar t.start, g.turn (.pairEnd start), ts)

def pairEnd (g : Grammar) (start : Mark) (ending : Problem) (ts : List Token) : Step := do
  let _ ← front ending ts
  pure (.recordEnd, g.turn (.flowItem start false), ts)

def flowKey (g : Grammar) (start : Mark) (isFirst : Bool) (ending : Problem) (ts : List Token) :
    Step := do
  let ts ← comma isFirst "while parsing a flow mapping" start
    "did not find expected ',' or '\x7d'" .flowRecordEnd ending ts
  let t ← front ending ts
  match t.kind with
  | .flowRecordEnd => pure (.recordEnd, g.leave, ts.drop 1)
  | .key =>
    let rest := ts.drop 1
    let u ← front ending rest
    match u.kind with
    | .value | .flowEntry | .flowRecordEnd =>
      pure (emptyScalar u.start, g.turn (.flowValue start), rest)
    | _ => node false false (g.enter (.flowValue start)) ending rest
  | _ => node false false (g.enter (.noValue start)) ending ts

def flowValue (g : Grammar) (start : Mark) (ending : Problem) (ts : List Token) : Step := do
  let t ← front ending ts
  match t.kind with
  | .value =>
    let rest := ts.drop 1
    let u ← front ending rest
    match u.kind with
    | .flowEntry | .flowRecordEnd =>
      pure (emptyScalar u.start, g.turn (.flowKey start false), rest)
    | _ => node false false (g.enter (.flowKey start false)) ending rest
  | _ => pure (emptyScalar t.start, g.turn (.flowKey start false), ts)

def noValue (g : Grammar) (start : Mark) (ending : Problem) (ts : List Token) : Step := do
  let t ← front ending ts
  pure (emptyScalar t.start, g.turn (.flowKey start false), ts)

def step (g : Grammar) (ending : Problem) (ts : List Token) : Step :=
  match g.goal with
  | .document isFirst => document g isFirst ending ts
  | .root => node true false g ending ts
  | .documentContent => documentContent g ending ts
  | .documentEnd => documentEnd g ending ts
  | .blockItem start => blockItem g start ending ts
  | .alignedItem => alignedItem g ending ts
  | .blockKey start => blockKey g start ending ts
  | .blockValue start => blockValue g start ending ts
  | .flowItem start isFirst => flowItem g start isFirst ending ts
  | .pairKey start => pairKey g start ending ts
  | .pairValue start => pairValue g start ending ts
  | .pairEnd start => pairEnd g start ending ts
  | .flowKey start isFirst => flowKey g start isFirst ending ts
  | .flowValue start => flowValue g start ending ts
  | .noValue start => noValue g start ending ts

def events (ending : Problem) (g : Grammar) (ts : List Token) : Nat → List Event × Option Problem
  | 0 => ([], some ending)
  | fuel + 1 =>
    match g.step ending ts with
    | .error p => ([], some p)
    | .ok (.streamEnd m, _, _) => ([.streamEnd m], none)
    | .ok (e, g, ts) =>
      let (others, problem) := events ending g ts fuel
      (e :: others, problem)

end Grammar

namespace Event

def ofTokens (ts : List Token) (problem : Option Problem) : List Event × Option Problem :=
  Grammar.events (problem.getD .endOfStream) {} ts (4 * ts.length + 4)

end Event

end FlowArtifact.Yaml
