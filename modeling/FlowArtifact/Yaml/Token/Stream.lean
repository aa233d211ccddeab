import FlowArtifact.Yaml.Token.Property
import FlowArtifact.Yaml.Token.Scalar

/-!
# The tokens of a text

The text is cut into tokens one after another. What turns out to be a key only at the colon behind
it receives its token afterwards: as long as this may happen, the tokens from there on are held
back. The indentation opens and closes blocks, except inside brackets. The main operation is
`Token.ofChars`, which gives the tokens up to the end or to the first problem.
-/

namespace FlowArtifact.Yaml

/-- A place where a key may have begun: the number of its first token, and whether a key must begin
there. -/
structure KeyStart where
  number : Nat
  mark : Mark
  isRequired : Bool

/-- What is known while a text is cut into tokens. -/
structure Scanner where
  cursor : Cursor
  /-- More than the characters of the text. -/
  fuel : Nat
  /-- Where a key may have begun: inside the innermost brackets first, outside of all last. -/
  keys : List (Option KeyStart) := [none]
  /-- The column of the innermost block, -1 outside of all blocks. -/
  indent : Int := -1
  /-- The columns of the blocks around it. -/
  indents : List Int := []
  /-- A key may begin here. -/
  keyAllowed : Bool := true
  /-- The tokens that are held back. -/
  queue : List Token := []
  /-- The number of tokens given out. -/
  given : Nat := 0
  /-- The end of the text was reached. -/
  atEnd : Bool := false
  /-- What the text breaks off with, if it does. -/
  broken : Option Problem := none

namespace Scanner

def inFlow (s : Scanner) : Bool := s.keys.length > 1

def mark (s : Scanner) : Mark := s.cursor.mark

def key? (s : Scanner) : Option KeyStart := s.keys.head?.join

def setKey (s : Scanner) (k : Option KeyStart) : Scanner := { s with keys := k :: s.keys.tail }

def push (s : Scanner) (t : Token) : Scanner := { s with queue := s.queue ++ [t] }

def insert (s : Scanner) (number : Nat) (t : Token) : Scanner :=
  let i := number - s.given
  { s with queue := s.queue.take i ++ t :: s.queue.drop i }

def emit (s : Scanner) (kind : Token.Kind) (c : Cursor) : Scanner :=
  { s.push ⟨s.mark, c.mark, kind⟩ with cursor := c }

/-! ## Keys -/

def missingKey (k : KeyStart) (m : Mark) : Problem :=
  .within "while scanning a simple key" k.mark "could not find expected ':'" m

def keySize : Nat := 1024

/-- A key that begins at `k` has to be on one line and not too long. -/
def isStale (m : Mark) (k : KeyStart) : Bool :=
  k.mark.line < m.line || k.mark.index + keySize < m.index

/-- Gives up places where a key cannot have begun any more. -/
def dropStale (s : Scanner) : Scan Scanner :=
  match s.keys.reverse.findSome? (·.filter fun k => isStale s.mark k && k.isRequired) with
  | some k => throw (missingKey k s.mark)
  | none => pure { s with keys := s.keys.map (·.filter fun k => !isStale s.mark k) }

def dropKey (s : Scanner) : Scan Scanner :=
  match s.key? with
  | some k => if k.isRequired then throw (missingKey k s.mark) else pure (s.setKey none)
  | none => pure s

def saveKey (s : Scanner) : Scan Scanner :=
  if s.keyAllowed then do
    let next ← s.dropKey
    pure (next.setKey (some
      { number := s.given + s.queue.length
        mark := s.mark
        isRequired := !s.inFlow && s.indent = s.mark.column }))
  else pure s

/-! ## Blocks -/

/-- Opens a block at a column if that is further in, with its token in front of the one with a
number or behind all. -/
def openBlock (s : Scanner) (column : Nat) (number : Option Nat) (kind : Token.Kind) (m : Mark) :
    Scanner :=
  if !s.inFlow && s.indent < column then
    let s := { s with indents := s.indent :: s.indents, indent := column }
    match number with
    | some n => s.insert n ⟨m, m, kind⟩
    | none => s.push ⟨m, m, kind⟩
  else s

def closeFrom (s : Scanner) (column : Int) : List Int → Scanner
  | [] => s
  | outer :: indents =>
    if column < s.indent then
      closeFrom { s.push ⟨s.mark, s.mark, .blockEnd⟩ with indent := outer, indents } column indents
    else s

def closeBlocks (s : Scanner) (column : Int) : Scanner :=
  if s.inFlow then s else s.closeFrom column s.indents

/-! ## Blanks -/

/-- Skips blanks, comments and line breaks. A tab cannot stand where a block may begin. -/
def skipBlanks (s : Scanner) : Nat → Scanner
  | 0 => s
  | fuel + 1 =>
    let tabs := s.inFlow || !s.keyAllowed
    let isMark := s.mark.column = 0 && s.cursor.head?.any (·.toNat = 0xFEFF)
    let c := if isMark then s.cursor.skip 1 else s.cursor
    let c := (c.skipWhile fun x => x = ' ' || (tabs && x = '\t')).skipComment
    match c.takeBreak? with
    | some (_, next) =>
      skipBlanks { s with cursor := next, keyAllowed := s.keyAllowed || !s.inFlow } fuel
    | none => { s with cursor := c }

/-! ## Tokens -/

def fetchEnd (s : Scanner) : Scan Scanner := do
  let m := s.mark
  let m := if m.column = 0 then m else m.nextLine 0
  let s := { s with cursor := ⟨[], m⟩ }.closeBlocks (-1)
  let s ← s.dropKey
  pure { s.push ⟨m, m, .streamEnd⟩ with keyAllowed := false, atEnd := true }

def fetchDirective (s : Scanner) : Scan Scanner := do
  let s ← (s.closeBlocks (-1)).dropKey
  let (kind, stop, next) ← Token.Property.directive s.cursor
  pure { s.push ⟨s.mark, stop, kind⟩ with cursor := next, keyAllowed := false }

def fetchSeparator (s : Scanner) (kind : Token.Kind) : Scan Scanner := do
  let s ← (s.closeBlocks (-1)).dropKey
  pure { s.emit kind (s.cursor.skip 3) with keyAllowed := false }

def fetchFlowStart (s : Scanner) (kind : Token.Kind) : Scan Scanner := do
  let s ← s.saveKey
  pure { s.emit kind (s.cursor.skip 1) with keys := none :: s.keys, keyAllowed := true }

def fetchFlowEnd (s : Scanner) (kind : Token.Kind) : Scan Scanner := do
  let s ← s.dropKey
  let keys := if s.inFlow then s.keys.tail else s.keys
  pure { s.emit kind (s.cursor.skip 1) with keys, keyAllowed := false }

def fetchFlowEntry (s : Scanner) : Scan Scanner := do
  let s ← s.dropKey
  pure { s.emit .flowEntry (s.cursor.skip 1) with keyAllowed := true }

/-- Opens the block of the sign that is next, if one may begin here. -/
def requireBlock (s : Scanner) (kind : Token.Kind) (what : String) : Scan Scanner :=
  if s.inFlow then pure s
  else if s.keyAllowed then pure (s.openBlock s.mark.column none kind s.mark)
  else throw (.plain what s.mark)

def fetchBlockEntry (s : Scanner) : Scan Scanner := do
  let s ← s.requireBlock .blockListStart "block sequence entries are not allowed in this context"
  let s ← s.dropKey
  pure { s.emit .blockEntry (s.cursor.skip 1) with keyAllowed := true }

def fetchKey (s : Scanner) : Scan Scanner := do
  let s ← s.requireBlock .blockRecordStart "mapping keys are not allowed in this context"
  let s ← s.dropKey
  pure { s.emit .key (s.cursor.skip 1) with keyAllowed := !s.inFlow }

/-- The colon of a value. What a key may have begun at now is one. -/
def fetchValue (s : Scanner) : Scan Scanner :=
  match s.key? with
  | some k =>
    let s := (s.insert k.number ⟨k.mark, k.mark, .key⟩).openBlock k.mark.column (some k.number)
      .blockRecordStart k.mark
    pure { (s.setKey none).emit .value (s.cursor.skip 1) with keyAllowed := false }
  | none => do
    let s ← s.requireBlock .blockRecordStart "mapping values are not allowed in this context"
    pure { s.emit .value (s.cursor.skip 1) with keyAllowed := !s.inFlow }

def fetchName (s : Scanner) (construct : String) (kind : String → Token.Kind) : Scan Scanner := do
  let s ← s.saveKey
  let (name, next) ← Token.Property.name construct s.cursor
  pure { s.emit (kind name) next with keyAllowed := false }

def fetchTag (s : Scanner) : Scan Scanner := do
  let s ← s.saveKey
  let (t, next) ← Token.Property.tag s.inFlow s.cursor
  pure { s.emit (.tag t) next with keyAllowed := false }

def emitScalar (s : Scanner) (isPlain : Bool) (l : Token.Scalar.Lexed) (keyAllowed : Bool) :
    Scanner :=
  { s.push ⟨s.mark, l.stop, .scalar (String.ofList l.text) isPlain⟩ with
    cursor := l.next, keyAllowed }

def fetchBlock (s : Scanner) (folded : Bool) : Scan Scanner := do
  let s ← s.dropKey
  let l ← Token.Scalar.block folded s.indent s.cursor s.fuel
  pure (s.emitScalar false l true)

def fetchQuoted (s : Scanner) (quote : Char) : Scan Scanner := do
  let s ← s.saveKey
  let l ← Token.Scalar.quoted quote s.cursor s.fuel
  pure (s.emitScalar false l false)

def fetchPlain (s : Scanner) : Scan Scanner := do
  let s ← s.saveKey
  let l ← Token.Scalar.plain s.inFlow (s.indent + 1).toNat s.cursor s.fuel
  pure (s.emitScalar true l l.crosses)

def isIndicator (c : Char) : Bool :=
  c = '-' || c = '?' || c = ':' || c = ',' || c = '[' || c = ']' || c = '{' || c = '}' ||
    c = '#' || c = '&' || c = '*' || c = '!' || c = '|' || c = '>' || c = '\'' || c = '"' ||
    c = '%' || c = '@' || c.toNat = 0x60

def startsPlain (s : Scanner) (x : Char) : Bool :=
  !(isGap x || isIndicator x) || (x = '-' && !(s.cursor.at? 1).any isBlank) ||
    (!s.inFlow && (x = '?' || x = ':') && !s.cursor.gapAt 1)

def fetchFrom (s : Scanner) (x : Char) : Scan Scanner :=
  let signs := s.inFlow || s.cursor.gapAt 1
  if s.mark.column = 0 && x = '%' then s.fetchDirective
  else if s.cursor.atRule '-' then s.fetchSeparator .documentStart
  else if s.cursor.atRule '.' then s.fetchSeparator .documentEnd
  else if x = '[' then s.fetchFlowStart .flowListStart
  else if x = '{' then s.fetchFlowStart .flowRecordStart
  else if x = ']' then s.fetchFlowEnd .flowListEnd
  else if x = '}' then s.fetchFlowEnd .flowRecordEnd
  else if x = ',' then s.fetchFlowEntry
  else if x = '-' && s.cursor.gapAt 1 then s.fetchBlockEntry
  else if x = '?' && signs then s.fetchKey
  else if x = ':' && signs then s.fetchValue
  else if x = '*' then s.fetchName "while scanning an alias" .alias
  else if x = '&' then s.fetchName "while scanning an anchor" .anchor
  else if x = '!' then s.fetchTag
  else if x = '|' && !s.inFlow then s.fetchBlock false
  else if x = '>' && !s.inFlow then s.fetchBlock true
  else if x = '\'' || x = '"' then s.fetchQuoted x
  else if s.startsPlain x then s.fetchPlain
  else
    throw (.within "while scanning for the next token" s.mark
      "found character that cannot start any token" s.mark)

/-- The most characters that are looked at before a token is begun. -/
def lookahead : Nat := 4

/-- At least `n` characters have to be left of a text that breaks off. -/
def require (s : Scanner) (n : Nat) : Scan Unit :=
  match s.broken with
  | some p => if (s.cursor.rest.take n).length < n then throw p else pure ()
  | none => pure ()

def fetch (s : Scanner) : Scan Scanner := do
  let s := s.skipBlanks s.fuel
  s.require 1
  let s ← s.dropStale
  let s := s.closeBlocks s.mark.column
  s.require lookahead
  match s.cursor.head? with
  | none => s.fetchEnd
  | some x => s.fetchFrom x

/-- A problem that shows where a text breaks off comes from the break. -/
def atBreak (s : Scanner) (p : Problem) : Problem :=
  match s.broken, p.mark? with
  | some b, some m =>
    if (s.mark.along s.cursor.rest).index < m.index + lookahead then b else p
  | _, _ => p

/-- Tokens that are not held back any more. -/
def release (s : Scanner) : List Token × Scanner :=
  let held := (s.keys.filterMap (·.map KeyStart.number)).foldl min (s.given + s.queue.length)
  let n := held - s.given
  (s.queue.take n, { s with queue := s.queue.drop n, given := s.given + n })

def tokens (s : Scanner) : Nat → List Token × Option Problem
  | 0 => (s.queue, none)
  | fuel + 1 =>
    if s.atEnd then (s.queue, none)
    else
      let next := do
        let t ← s.fetch
        t.require 1
        t.dropStale
      match next with
      | .error p => ([], some (s.atBreak p))
      | .ok s =>
        let (ready, s) := s.release
        let (others, problem) := tokens s fuel
        (ready ++ others, problem)

end Scanner

namespace Token

def ofChars (text : List Char) (broken : Option Problem) : List Token × Option Problem :=
  let fuel := text.length + 1
  Scanner.tokens { cursor := ⟨text, {}⟩, fuel, broken } (fuel + 2)

end Token

end FlowArtifact.Yaml
