/-!
# Blank characters and lines

The characters with the Unicode property White_Space, and the lines of a text, which end in a line
feed with or without a carriage return before it.
-/

namespace FlowArtifact.Text

/-- The character has the Unicode property White_Space. -/
def isBlank (c : Char) : Bool :=
  let n := c.toNat
  (9 ≤ n && n ≤ 13) || n = 0x20 || n = 0x85 || n = 0xA0 || n = 0x1680 ||
    (0x2000 ≤ n && n ≤ 0x200A) || n = 0x2028 || n = 0x2029 || n = 0x202F || n = 0x205F ||
    n = 0x3000

def trim (cs : List Char) : List Char :=
  (cs.dropWhile isBlank).reverse.dropWhile isBlank |>.reverse

def trimEnd (cs : List Char) : List Char := (cs.reverse.dropWhile isBlank).reverse

/-- A line that was ended by a line feed, without a carriage return at its end. -/
def endLine (line : List Char) : List Char :=
  if line.getLast? = some '\r' then line.dropLast else line

/-- The lines of a text; `line` was read of the first one, from the last character. -/
def linesFrom (line : List Char) : List Char → List (List Char)
  | [] => if line = [] then [] else [line.reverse]
  | c :: rest =>
    if c = '\n' then endLine line.reverse :: linesFrom [] rest else linesFrom (c :: line) rest

def lines (cs : List Char) : List (List Char) := linesFrom [] cs

end FlowArtifact.Text
