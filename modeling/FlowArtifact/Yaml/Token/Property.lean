import FlowArtifact.Yaml.Token

/-!
# Anchors, tags and directives of a YAML text
-/

namespace FlowArtifact.Yaml.Token.Property

/-! ## Anchors -/

/-- What may stand behind the name of an anchor apart from a gap. -/
def endsName (c : Char) : Bool :=
  c = '?' || c = ':' || c = ',' || c = ']' || c = '}' || c = '%' || c = '@' || c.toNat = 0x60

def name (construct : String) (c : Cursor) : Scan (String × Cursor) :=
  let (word, next) := (c.skip 1).takeWhile isWordChar
  if word = [] || !next.head?.all (fun d => isGap d || endsName d) then
    throw (.within construct c.mark "did not find expected alphabetic or numeric character"
      next.mark)
  else pure (String.ofList word, next)

/-! ## Texts with escaped octets -/

def octet? (c : Cursor) : Option UInt8 :=
  match c.rest with
  | '%' :: a :: b :: _ => do pure (UInt8.ofNat ((← hexDigit? a) * 16 + (← hexDigit? b)))
  | _ => none

/-- The octets of the character that an octet begins, 0 if it begins none. -/
def width (octet : UInt8) : Nat :=
  if octet < 0x80 then 1
  else if 0xC0 ≤ octet ∧ octet < 0xE0 then 2
  else if 0xE0 ≤ octet ∧ octet < 0xF0 then 3
  else if 0xF0 ≤ octet ∧ octet < 0xF8 then 4
  else 0

/-- Takes `n` octets that go on with a character. -/
def otherOctets (construct : String) (start : Mark) (c : Cursor) :
    Nat → Scan (List UInt8 × Cursor)
  | 0 => pure ([], c)
  | n + 1 =>
    match octet? c with
    | none => throw (.within construct start "did not find URI escaped octet" c.mark)
    | some o => do
      if o / 64 ≠ 2 then
        throw (.within construct start "found an incorrect trailing UTF-8 octet" c.mark)
      let (others, next) ← otherOctets construct start (c.skip 3) n
      pure (o :: others, next)

def octets (construct : String) (start : Mark) (c : Cursor) : Scan (List UInt8 × Cursor) :=
  match octet? c with
  | none => throw (.within construct start "did not find URI escaped octet" c.mark)
  | some o => do
    if width o = 0 then
      throw (.within construct start "found an incorrect leading UTF-8 octet" c.mark)
    let (others, next) ← otherOctets construct start (c.skip 3) (width o - 1)
    pure (o :: others, next)

def uriMarks : List Char := ";/?:@&=+$.%!~*()".toList

/-- A character of a tag; commas and square brackets only where the tag is `enclosed`. -/
def isUriChar (enclosed : Bool) (c : Char) : Bool :=
  isWordChar c || c ∈ uriMarks || c = '\'' || (enclosed && (c = ',' || c = '[' || c = ']'))

/-- Reads the octets of a tag: characters, which are ASCII, and escaped octets. -/
def uriOctets (enclosed : Bool) (construct : String) (start : Mark) (c : Cursor) :
    Nat → Scan (List UInt8 × Cursor)
  | 0 => .ok ([], c)
  | fuel + 1 =>
    match c.head? with
    | none => .ok ([], c)
    | some x =>
      if !isUriChar enclosed x then .ok ([], c)
      else do
        let (os, next) ←
          if x = '%' then octets construct start c else pure ([x.toUInt8], c.skip 1)
        let (others, behind) ← uriOctets enclosed construct start next fuel
        pure (os ++ others, behind)

/-- Reads the rest of a tag. Behind a beginning `head`, whose sign is dropped, it may be empty. -/
def uri (enclosed : Bool) (construct : String) (start : Mark) (head : List Char) (c : Cursor) :
    Scan (Uri × Cursor) := do
  if head = [] && !c.head?.any (isUriChar enclosed) then
    throw (.within construct start "did not find expected tag URI" c.mark)
  let (os, next) ← uriOctets enclosed construct start c (c.rest.length + 1)
  pure (.ofOctets ((head.drop 1).map Char.toUInt8 ++ os), next)

/-! ## Tags -/

/-- Reads a sign, a word and, if it is there, a second sign. -/
def handle (construct : String) (start : Mark) (c : Cursor) : Scan (List Char × Cursor) :=
  if c.sees '!' then
    let (word, next) := (c.skip 1).takeWhile isWordChar
    if next.sees '!' then pure ('!' :: word ++ ['!'], next.skip 1) else pure ('!' :: word, next)
  else throw (.within construct start "did not find expected '!'" c.mark)

def tagConstruct : String := "while scanning a tag"

def tagParts (c : Cursor) : Scan (WrittenTag × Cursor) := do
  let start := c.mark
  if c.at? 1 = some '<' then
    let (suffix, next) ← uri true "while parsing a tag" start [] (c.skip 2)
    if !next.sees '>' then
      throw (.within tagConstruct start "did not find the expected '>'" next.mark)
    pure (⟨"", suffix⟩, next.skip 1)
  else
    let (head, next) ← handle tagConstruct start c
    if head.length > 1 ∧ head.getLast? = some '!' then
      let (suffix, next) ← uri false "while parsing a tag" start [] next
      pure (⟨String.ofList head, suffix⟩, next)
    else
      let (suffix, next) ← uri false "while parsing a tag" start head next
      if suffix.octets = [] then pure (⟨"", .ofAscii "!"⟩, next)
      else pure (⟨"!", suffix⟩, next)

def tag (inFlow : Bool) (c : Cursor) : Scan (WrittenTag × Cursor) := do
  let (t, next) ← tagParts c
  if next.gapAt 0 || (inFlow && next.sees ',') then pure (t, next)
  else
    throw (.within tagConstruct c.mark "did not find expected whitespace or line break" next.mark)

/-! ## Directives -/

def versionConstruct : String := "while scanning a %YAML directive"

/-- Reads a part of a version, of at most nine digits. -/
def versionNumber (start : Mark) (c : Cursor) : Scan (Nat × Cursor) := do
  let (digits, next) := c.takeWhile Char.isDigit
  if 9 < digits.length then
    throw (.within versionConstruct start "found extremely long version number" (c.skip 9).mark)
  if digits = [] then
    throw (.within versionConstruct start "did not find expected version number" c.mark)
  pure (digits.foldl (fun v d => v * 10 + (d.toNat - 48)) 0, next)

def version (start : Mark) (c : Cursor) : Scan (Token.Kind × Cursor) := do
  let (major, next) ← versionNumber start (c.skipWhile isBlank)
  if !next.sees '.' then
    throw (.within versionConstruct start "did not find expected digit or '.' character" next.mark)
  let (minor, next) ← versionNumber start (next.skip 1)
  pure (.version major minor, next)

def tagHandle (start : Mark) (c : Cursor) : Scan (Token.Kind × Cursor) := do
  let construct := "while scanning a %TAG directive"
  let (head, next) ← handle "while scanning a tag directive" start (c.skipWhile isBlank)
  if head ≠ ['!'] ∧ head.getLast? ≠ some '!' then
    throw (.within "while parsing a tag directive" start "did not find expected '!'" next.mark)
  if !next.head?.any isBlank then
    throw (.within construct start "did not find expected whitespace" next.mark)
  let (stem, next) ← uri true "while parsing a %TAG directive" start [] (next.skipWhile isBlank)
  if !next.gapAt 0 then
    throw (.within construct start "did not find expected whitespace or line break" next.mark)
  pure (.tagHandle (String.ofList head) stem, next)

def directiveConstruct : String := "while scanning a directive"

/-- Reads a directive with its line. Also gives the mark behind the directive. -/
def directive (c : Cursor) : Scan (Token.Kind × Mark × Cursor) := do
  let start := c.mark
  let (name, next) := (c.skip 1).takeWhile isWordChar
  if name = [] then
    throw (.within directiveConstruct start "could not find expected directive name" next.mark)
  if !next.gapAt 0 then
    throw (.within directiveConstruct start "found unexpected non-alphabetical character" next.mark)
  let (kind, behind) ←
    if name = "YAML".toList then version start next
    else if name = "TAG".toList then tagHandle start next
    else throw (.within directiveConstruct start "found unknown directive name" next.mark)
  let lineEnd := (behind.skipWhile isBlank).skipComment
  if !lineEnd.atLineEnd then
    throw (.within directiveConstruct start "did not find expected comment or line break"
      lineEnd.mark)
  pure (kind, behind.mark, lineEnd.skipBreak)

end FlowArtifact.Yaml.Token.Property
