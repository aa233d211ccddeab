import FlowArtifact.Yaml.Cursor
import FlowArtifact.Yaml.Resolution

/-!
# How texts are written in YAML

A text is written plain if that is read back as the same text, in single quotes if it can be, and
with escapes in double quotes otherwise. A text of several lines is written as a block.
-/

namespace FlowArtifact.Yaml

inductive Style where
  | plain
  | single
  | double
  | block
deriving DecidableEq

namespace Style

def isPrintable (c : Char) : Bool :=
  let n := c.toNat
  n = 0x0A || (0x20 ≤ n && n ≤ 0x7E) || (0xA0 ≤ n && n ≤ 0xD7FF) ||
    (0xE000 ≤ n && n ≤ 0xFFFD && n ≠ 0xFEFF) || 0x10000 ≤ n

def hasPair (p q : Char → Bool) (cs : List Char) : Bool :=
  (cs.zip (cs.drop 1)).any fun e => p e.1 && q e.2

def isSpace (c : Char) : Bool := c = ' '

/-- A character that says something else than text where it begins a scalar. -/
def isLeadingSign (c : Char) : Bool :=
  c = '#' || c = ',' || c = '[' || c = ']' || c = '{' || c = '}' || c = '&' || c = '*' ||
    c = '!' || c = '|' || c = '>' || c = '\'' || c = '"' || c = '%' || c = '@' || c.toNat = 0x60

def hasLeadingSign (cs : List Char) : Bool :=
  cs.take 3 = ['-', '-', '-'] || cs.take 3 = ['.', '.', '.'] ||
    match cs with
    | [] => false
    | c :: rest =>
      isLeadingSign c || ((c = '?' || c = ':' || c = '-') && rest.head?.all isGap)

def hasInnerSign (cs : List Char) : Bool :=
  hasPair (· = ':') isGap cs || (cs.getLast? = some ':') || hasPair isGap (· = '#') cs

/-- The text holds characters that need escapes, or a line of it ends in a blank. -/
def needsEscapes (cs : List Char) : Bool := cs.any (!isPrintable ·) || hasPair isSpace isBreak cs

def allowsSingle (cs : List Char) : Bool := !needsEscapes cs && !hasPair isBreak isSpace cs

def allowsPlain (cs : List Char) : Bool :=
  !needsEscapes cs && !cs.any isBreak && !cs.head?.any isSpace && !cs.getLast?.any isSpace &&
    !hasLeadingSign cs && !hasInnerSign cs

def allowsBlock (cs : List Char) : Bool := !needsEscapes cs && !cs.getLast?.any isSpace

def meansText (s : String) : Bool := resolve s = .scalar (.text s) && !isPadded s.toList

/-- How a text is written where blocks are possible. -/
def ofText (s : String) : Style :=
  let cs := s.toList
  if '\n' ∈ cs then if allowsBlock cs then block else double
  else if meansText s && allowsPlain cs then plain
  else if allowsSingle cs then single
  else double

end Style

def padding (indent : Nat) : List Char := List.replicate indent ' '

/-- The text of a block behind its heading; `isStart` at the beginning of a line. -/
def blockChars (indent : Nat) (isStart : Bool) : List Char → List Char
  | [] => []
  | c :: rest =>
    if isBreak c then c :: blockChars indent true rest
    else (if isStart then padding indent else []) ++ c :: blockChars indent false rest

/-- The heading of a block: the indentation if the block begins with a blank, and what becomes of
the line breaks at its end. -/
def blockHeading (cs : List Char) : List Char :=
  let width := if cs.head?.any fun c => c = ' ' || isBreak c then ['2'] else []
  let chomping := match cs.reverse with
    | [] => ['-']
    | [last] => if isBreak last then ['+'] else ['-']
    | last :: before :: _ =>
      if !isBreak last then ['-'] else if isBreak before then ['+'] else []
  '|' :: width ++ chomping

/-- The text between single quotes with the closing quote; `isStart` at the beginning of a line. -/
def singleChars (indent : Nat) (isStart : Bool) : List Char → List Char
  | [] => (if isStart then padding indent else []) ++ ['\'']
  | c :: rest =>
    if isBreak c then c :: singleChars indent true rest
    else
      (if isStart then padding indent else []) ++ (if c = '\'' then ['\'', '\''] else [c]) ++
        singleChars indent false rest

def hexChar (n : Nat) : Char := Char.ofNat (if n < 10 then 48 + n else 55 + n)

def hexChars (n : Nat) : (digits : Nat) → List Char
  | 0 => []
  | digits + 1 => hexChar (n / Nat.pow 16 digits % 16) :: hexChars n digits

def escapeLetter? (c : Char) : Option Char :=
  let n := c.toNat
  if n = 0x00 then some '0'
  else if n = 0x07 then some 'a'
  else if n = 0x08 then some 'b'
  else if n = 0x09 then some 't'
  else if n = 0x0A then some 'n'
  else if n = 0x0B then some 'v'
  else if n = 0x0C then some 'f'
  else if n = 0x0D then some 'r'
  else if n = 0x1B then some 'e'
  else if c = '"' ∨ c = '\\' then some c
  else if n = 0x85 then some 'N'
  else if n = 0x2028 then some 'L'
  else if n = 0x2029 then some 'P'
  else none

def doubleChar (c : Char) : List Char :=
  if Style.isPrintable c && !isBreak c && c ≠ '"' && c ≠ '\\' then [c]
  else
    match escapeLetter? c with
    | some e => ['\\', e]
    | none =>
      let n := c.toNat
      if n < 0x100 then '\\' :: 'x' :: hexChars n 2
      else if n < 0x10000 then '\\' :: 'u' :: hexChars n 4
      else '\\' :: 'U' :: hexChars n 8

def textChars (indent : Nat) (style : Style) (s : String) : List Char :=
  let cs := s.toList
  match style with
  | .plain => cs
  | .single => '\'' :: singleChars indent false cs
  | .double => '"' :: cs.flatMap doubleChar ++ ['"']
  | .block => blockHeading cs ++ '\n' :: blockChars indent true cs

end FlowArtifact.Yaml
