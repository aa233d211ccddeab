import FlowArtifact.Yaml.Problem

/-!
# Positions in a YAML text

A `Cursor` is what is left of a text together with the mark of where it stands. A carriage return
and a line feed behind it are one line break.
-/

namespace FlowArtifact.Yaml

def isBlank (c : Char) : Bool := c = ' ' || c = '\t'

def isBreak (c : Char) : Bool :=
  c = '\n' || c = '\r' || c.toNat = 0x85 || c.toNat = 0x2028 || c.toNat = 0x2029

def isGap (c : Char) : Bool := isBlank c || isBreak c

def isWordChar (c : Char) : Bool := c.isAlphanum || c = '_' || c = '-'

def hexDigit? (c : Char) : Option Nat :=
  if c.isDigit then some (c.toNat - 48)
  else if 'a' ≤ c ∧ c ≤ 'f' then some (c.toNat - 87)
  else if 'A' ≤ c ∧ c ≤ 'F' then some (c.toNat - 55)
  else none

/-- How a line break counts in a scalar: separators of lines and paragraphs stay what they are. -/
def breakValue (c : Char) : Char :=
  if c.toNat = 0x2028 ∨ c.toNat = 0x2029 then c else '\n'

namespace Mark

def along (m : Mark) (passed : List Char) : Mark :=
  ⟨passed.foldl (· + ·.utf8Size) m.index, m.line, m.column + passed.length⟩

def nextLine (m : Mark) (n : Nat) : Mark := ⟨m.index + n, m.line + 1, 0⟩

end Mark

structure Cursor where
  rest : List Char
  mark : Mark := {}

namespace Cursor

def head? (c : Cursor) : Option Char := c.rest.head?

def at? (c : Cursor) (n : Nat) : Option Char := c.rest[n]?

def sees (c : Cursor) (x : Char) : Bool := c.head? = some x

/-- At the `n`-th character from here a blank, a line break or the end of the text stands. -/
def gapAt (c : Cursor) (n : Nat) : Bool := (c.at? n).all isGap

def atLineEnd (c : Cursor) : Bool := c.head?.all isBreak

def skip (c : Cursor) (n : Nat) : Cursor := ⟨c.rest.drop n, c.mark.along (c.rest.take n)⟩

/-- Takes the characters of a class, none of which is a line break. -/
def takeWhile (p : Char → Bool) (c : Cursor) : List Char × Cursor :=
  let taken := c.rest.takeWhile p
  (taken, c.skip taken.length)

def skipWhile (p : Char → Bool) (c : Cursor) : Cursor := (c.takeWhile p).2

def takeBreak? (c : Cursor) : Option (Char × Cursor) :=
  match c.rest with
  | '\r' :: '\n' :: rest => some ('\n', ⟨rest, c.mark.nextLine 2⟩)
  | x :: rest =>
    if isBreak x then some (breakValue x, ⟨rest, c.mark.nextLine x.utf8Size⟩) else none
  | [] => none

def skipBreak (c : Cursor) : Cursor :=
  match c.takeBreak? with
  | some (_, d) => d
  | none => c

def skipComment (c : Cursor) : Cursor :=
  if c.sees '#' then c.skipWhile (!isBreak ·) else c

/-- A line of three characters `x` stands here and ends a document. -/
def atRule (c : Cursor) (x : Char) : Bool :=
  c.mark.column = 0 && c.rest.take 3 = [x, x, x] && c.gapAt 3

def atSeparator (c : Cursor) : Bool := c.atRule '-' || c.atRule '.'

end Cursor

abbrev Scan (α : Type) := Except Problem α

/-- A problem inside a construct that began at `start`. -/
def Problem.within (construct : String) (start : Mark) (what : String) (mark : Mark) : Problem :=
  .badText what 0 mark (some (construct, start))

def Problem.plain (what : String) (mark : Mark) : Problem := .badText what 0 mark none

end FlowArtifact.Yaml
