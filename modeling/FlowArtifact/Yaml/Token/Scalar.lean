import FlowArtifact.Yaml.Gap
import FlowArtifact.Yaml.Token

/-!
# Scalars of a YAML text

A scalar is plain, in single or double quotes, or a block of indented lines that are kept or folded.
Each reader gives the text of the scalar and the cursor behind it; its fuel is more than the
characters that are left.
-/

namespace FlowArtifact.Yaml.Token.Scalar

structure Lexed where
  text : List Char
  /-- Where the scalar ends; the cursor may be behind blanks that follow it. -/
  stop : Mark
  next : Cursor
  /-- A line ended behind the scalar. -/
  crosses : Bool := false

/-! ## Plain scalars -/

/-- Inside brackets these characters end a plain scalar. -/
def isBracketing (c : Char) : Bool := c = ',' || c = '[' || c = ']' || c = '{' || c = '}'

/-- The number of characters up to where a piece of a plain scalar ends, and whether it ends at a
colon that cannot stand there. -/
def plainPiece (inFlow : Bool) : List Char → Nat × Bool
  | [] => (0, false)
  | c :: rest =>
    if isGap c then (0, false)
    else if inFlow && c = ':' && rest.head?.any fun d => isBracketing d || d = '?' then (0, true)
    else if (c = ':' && rest.head?.all isGap) || (inFlow && isBracketing c) then (0, false)
    else
      let (n, bad) := plainPiece inFlow rest
      (n + 1, bad)

def plainConstruct : String := "while scanning a plain scalar"

/-- Reads a plain scalar on behind a `gap`. If no more of it follows, it ends at `stop`. -/
def plainFrom (inFlow : Bool) (limit : Nat) (start stop : Mark) (gap : Gap) (c : Cursor) :
    Nat → Scan Lexed
  | 0 => .ok ⟨[], stop, c, gap.crosses⟩
  | fuel + 1 =>
    if c.atSeparator || c.sees '#' then .ok ⟨[], stop, c, gap.crosses⟩
    else
      let (n, bad) := plainPiece inFlow c.rest
      let next := c.skip n
      if bad then throw (.within plainConstruct start "found unexpected ':'" next.mark)
      else if n = 0 then .ok ⟨[], stop, c, gap.crosses⟩
      else
        let text := gap.text ++ c.rest.take n
        if next.head?.any isGap then
          match Gap.take limit {} next.mark next.rest with
          | .error m =>
            throw (.within plainConstruct start
              "found a tab character that violates indentation" m)
          | .ok (gap, behind) =>
            if !inFlow && behind.mark.column < limit then
              .ok ⟨text, next.mark, behind, gap.crosses⟩
            else do
              let others ← plainFrom inFlow limit start next.mark gap behind fuel
              pure { others with text := text ++ others.text }
        else .ok ⟨text, next.mark, next, false⟩

/-- Reads a plain scalar whose lines begin at the column `limit` or behind it. -/
def plain (inFlow : Bool) (limit : Nat) (c : Cursor) (fuel : Nat) : Scan Lexed :=
  plainFrom inFlow limit c.mark c.mark {} c fuel

/-! ## Quoted scalars -/

def escaped? (c : Char) : Option Char :=
  if c = '0' then some (Char.ofNat 0)
  else if c = 'a' then some (Char.ofNat 7)
  else if c = 'b' then some (Char.ofNat 8)
  else if c = 't' ∨ c = '\t' then some '\t'
  else if c = 'n' then some '\n'
  else if c = 'v' then some (Char.ofNat 11)
  else if c = 'f' then some (Char.ofNat 12)
  else if c = 'r' then some '\r'
  else if c = 'e' then some (Char.ofNat 27)
  else if c = ' ' ∨ c = '"' ∨ c = '/' ∨ c = '\\' then some c
  else if c = 'N' then some (Char.ofNat 0x85)
  else if c = '_' then some (Char.ofNat 0xA0)
  else if c = 'L' then some (Char.ofNat 0x2028)
  else if c = 'P' then some (Char.ofNat 0x2029)
  else none

def codeLength? (c : Char) : Option Nat :=
  if c = 'x' then some 2 else if c = 'u' then some 4 else if c = 'U' then some 8 else none

def hexValue? (digits : List Char) : Option Nat :=
  digits.foldlM (fun v c => (hexDigit? c).map (v * 16 + ·)) 0

def isNoCharacter (n : Nat) : Bool := (0xD800 ≤ n && n ≤ 0xDFFF) || 0x10FFFF < n

def escape (start : Mark) (c : Cursor) : Scan (Char × Cursor) := do
  let construct := "while parsing a quoted scalar"
  let letter := (c.at? 1).getD (Char.ofNat 0x10FFFF)
  match escaped? letter, codeLength? letter with
  | some e, _ => pure (e, c.skip 2)
  | none, none => throw (.within construct start "found unknown escape character" c.mark)
  | none, some n =>
    let digits := (c.skip 2).rest.take n
    match if digits.length = n then hexValue? digits else none with
    | none =>
      throw (.within construct start "did not find expected hexdecimal number" (c.skip 2).mark)
    | some v =>
      if isNoCharacter v then
        throw (.within construct start "found invalid Unicode character escape code"
          (c.skip 2).mark)
      else pure (Char.ofNat v, c.skip (2 + n))

/-- Reads a piece of a quoted scalar up to a gap, to the closing quote, or behind a line break that
is escaped. Also tells whether one was. -/
def quotedPiece (quote : Char) (start : Mark) (c : Cursor) : Nat → Scan (List Char × Bool × Cursor)
  | 0 => .ok ([], false, c)
  | fuel + 1 =>
    let goOn (x : Char) (next : Cursor) : Scan (List Char × Bool × Cursor) := do
      let (piece, isEscaped, behind) ← quotedPiece quote start next fuel
      pure (x :: piece, isEscaped, behind)
    match c.rest with
    | [] => .ok ([], false, c)
    | x :: rest =>
      if isGap x then .ok ([], false, c)
      else if x = quote then
        if x = '\'' ∧ rest.head? = some '\'' then goOn '\'' (c.skip 2) else .ok ([], false, c)
      else if x = '\\' ∧ quote = '"' then
        if rest.head?.any isBreak then .ok ([], true, (c.skip 1).skipBreak)
        else do
          let (e, next) ← escape start c
          goOn e next
      else goOn x (c.skip 1)

def quotedFrom (quote : Char) (start : Mark) (c : Cursor) : Nat → Scan Lexed
  | 0 => .ok ⟨[], c.mark, c, false⟩
  | fuel + 1 => do
    let construct := "while scanning a quoted scalar"
    if c.atSeparator then
      throw (.within construct start "found unexpected document indicator" c.mark)
    if c.rest.isEmpty then
      throw (.within construct start "found unexpected end of stream" c.mark)
    let (piece, isEscaped, next) ← quotedPiece quote start c (fuel + 1)
    if next.sees quote then
      let behind := next.skip 1
      pure ⟨piece, behind.mark, behind, false⟩
    else
      match Gap.take 0 (if isEscaped then .escaped else {}) next.mark next.rest with
      | .ok (gap, behind) => do
        let others ← quotedFrom quote start behind fuel
        pure { others with text := piece ++ (gap.text ++ others.text) }
      | .error m => throw (.within construct start "found unexpected end of stream" m)

def quoted (quote : Char) (c : Cursor) (fuel : Nat) : Scan Lexed :=
  quotedFrom quote c.mark (c.skip 1) fuel

/-! ## Block scalars -/

/-- What becomes of the line breaks at the end of a block. -/
inductive Chomping where
  | strip
  | clip
  | keep
deriving DecidableEq

structure Heading where
  chomping : Chomping := .clip
  increment : Option Nat := none

def blockConstruct : String := "while scanning a block scalar"

def chomping? (c : Cursor) : Option Chomping :=
  if c.sees '+' then some .keep else if c.sees '-' then some .strip else none

def increment (start : Mark) (c : Cursor) : Scan (Option Nat × Cursor) :=
  match c.head? with
  | some d =>
    if d = '0' then
      throw (.within blockConstruct start "found an indentation indicator equal to 0" c.mark)
    else if d.isDigit then pure (some (d.toNat - 48), c.skip 1)
    else pure (none, c)
  | none => pure (none, c)

/-- Reads the heading, which gives the chomping and the indentation in either order. -/
def heading (start : Mark) (c : Cursor) : Scan (Heading × Cursor) := do
  match chomping? c with
  | some chomping =>
    let (n, next) ← increment start (c.skip 1)
    pure (⟨chomping, n⟩, next)
  | none =>
    match ← increment start c with
    | (none, next) => pure ({}, next)
    | (some n, next) =>
      match chomping? next with
      | some chomping => pure (⟨chomping, some n⟩, next.skip 1)
      | none => pure ({ increment := some n }, next)

/-- The empty lines before a line of a block. -/
structure EmptyLines where
  breaks : List Char := []
  /-- The widest indentation of them. -/
  width : Nat := 0
  /-- Where they end. -/
  stop : Mark
  next : Cursor

/-- Takes empty lines and the indentation of the line behind them; without an indentation all blanks
belong to it. -/
def emptyLines (start : Mark) (indent : Option Nat) (lines : EmptyLines) : Nat → Scan EmptyLines
  | 0 => .ok lines
  | fuel + 1 =>
    let c := lines.next
    let blanks := (c.rest.takeWhile (· = ' ')).length
    let next := c.skip (match indent with
      | none => blanks
      | some n => min blanks (n - c.mark.column))
    let width := max lines.width next.mark.column
    if indent.all (next.mark.column < ·) && next.sees '\t' then
      throw (.within blockConstruct start
        "found a tab character where an indentation space is expected" next.mark)
    else
      match next.takeBreak? with
      | some (b, behind) =>
        emptyLines start indent ⟨lines.breaks ++ [b], width, behind.mark, behind⟩ fuel
      | none => .ok { lines with width, next }

structure LineBefore where
  /-- Its break. -/
  lineBreak : List Char := []
  /-- It begins with a blank. -/
  indented : Bool := false

def LineBefore.join (folded : Bool) (before : LineBefore) (breaks : List Char)
    (indented : Bool) : List Char :=
  if folded && before.lineBreak = ['\n'] && !before.indented && !indented then
    if breaks = [] then [' '] else breaks
  else before.lineBreak ++ breaks

def Chomping.tail (lineBreak breaks : List Char) : Chomping → List Char
  | .strip => []
  | .clip => lineBreak
  | .keep => lineBreak ++ breaks

structure Layout where
  folded : Bool
  chomping : Chomping
  /-- The column at which the lines begin. -/
  indent : Nat

def blockLines (layout : Layout) (start : Mark) (before : LineBefore) (lines : EmptyLines) :
    Nat → Scan Lexed
  | 0 => .ok ⟨[], lines.stop, lines.next, false⟩
  | fuel + 1 => do
    let c := lines.next
    if c.mark.column ≠ layout.indent || c.rest.isEmpty then
      pure ⟨layout.chomping.tail before.lineBreak lines.breaks, lines.stop, c, false⟩
    else
      let indented := c.head?.any isBlank
      let (line, next) := c.takeWhile (!isBreak ·)
      let text := before.join layout.folded lines.breaks indented ++ line
      let (lineBreak, behind) := match next.takeBreak? with
        | some (b, d) => ([b], d)
        | none => ([], next)
      let lines ← emptyLines start (some layout.indent) { stop := behind.mark, next := behind }
        (fuel + 1)
      let others ← blockLines layout start ⟨lineBreak, indented⟩ lines fuel
      pure { others with text := text ++ others.text }

/-- Reads a block scalar inside a block of indentation `outer`. -/
def block (folded : Bool) (outer : Int) (c : Cursor) (fuel : Nat) : Scan Lexed := do
  let start := c.mark
  let (head, next) ← heading start (c.skip 1)
  let next := (next.skipWhile isBlank).skipComment
  if !next.atLineEnd then
    throw (.within blockConstruct start "did not find expected comment or line break" next.mark)
  let next := next.skipBreak
  let given := head.increment.map fun n => if 0 ≤ outer then outer.toNat + n else n
  let lines ← emptyLines start given { stop := next.mark, next } fuel
  let indent := given.getD (max lines.width (max (outer + 1).toNat 1))
  blockLines ⟨folded, head.chomping, indent⟩ start {} lines fuel

end FlowArtifact.Yaml.Token.Scalar
