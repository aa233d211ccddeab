import FlowArtifact.Json.Reader

/-!
# Writing JSON

A document is written on one line without blanks, or with one item or field on a line, indented by
two blanks for each level. Empty lists and records stay on one line.
-/

namespace FlowArtifact.Json

def hexChar (n : Nat) : Char := Char.ofNat (if n < 10 then 48 + n else 87 + n)

def escape (c : Char) : List Char :=
  if c = '"' then ['\\', '"']
  else if c = '\\' then ['\\', '\\']
  else if 32 ≤ c.toNat then [c]
  else if c = '\n' then ['\\', 'n']
  else if c = '\r' then ['\\', 'r']
  else if c = '\t' then ['\\', 't']
  else if c.toNat = 8 then ['\\', 'b']
  else if c.toNat = 12 then ['\\', 'f']
  else ['\\', 'u', '0', '0', hexChar (c.toNat / 16), hexChar (c.toNat % 16)]

def textChars (s : String) : List Char := '"' :: s.toList.flatMap escape ++ ['"']

def scalarChars : Scalar → List Char
  | .null => ['n', 'u', 'l', 'l']
  | .bool true => ['t', 'r', 'u', 'e']
  | .bool false => ['f', 'a', 'l', 's', 'e']
  | .int n => intChars n.val
  | .real x => if x.isFinite then (x.text layout).toList else ['n', 'u', 'l', 'l']
  | .text s => textChars s

/-- A key. Every key is written as a text. -/
def keyChars : Head → List Char
  | .scalar (.text s) => textChars s
  | .scalar s => textChars (String.ofList (scalarChars s))
  | _ => textChars ""

mutual
def compactChars : Doc → List Char
  | .scalar s => scalarChars s
  | .minusZero => ['-', '0']
  | .list items => '[' :: compactItems true items
  | .record fields => '{' :: compactFields true fields

def compactItems (isFirst : Bool) : List Doc → List Char
  | [] => [']']
  | d :: rest =>
    (if isFirst then [] else [',']) ++ (compactChars d ++ compactItems false rest)

def compactFields (isFirst : Bool) : List (Head × Doc) → List Char
  | [] => ['}']
  | (key, d) :: rest =>
    (if isFirst then [] else [',']) ++
      (keyChars key ++ ':' :: (compactChars d ++ compactFields false rest))
end

def lineChars (level : Nat) : List Char := '\n' :: List.replicate (2 * level) ' '

mutual
def prettyChars (level : Nat) : Doc → List Char
  | .scalar s => scalarChars s
  | .minusZero => ['-', '0']
  | .list [] => ['[', ']']
  | .list (d :: rest) =>
    '[' :: (lineChars (level + 1) ++ (prettyChars (level + 1) d ++ prettyItems level rest))
  | .record [] => ['{', '}']
  | .record ((key, d) :: rest) =>
    '{' :: (lineChars (level + 1) ++ (keyChars key ++
      ':' :: ' ' :: (prettyChars (level + 1) d ++ prettyFields level rest)))

def prettyItems (level : Nat) : List Doc → List Char
  | [] => lineChars level ++ [']']
  | d :: rest =>
    ',' :: (lineChars (level + 1) ++ (prettyChars (level + 1) d ++ prettyItems level rest))

def prettyFields (level : Nat) : List (Head × Doc) → List Char
  | [] => lineChars level ++ ['}']
  | (key, d) :: rest =>
    ',' :: (lineChars (level + 1) ++ (keyChars key ++
      ':' :: ' ' :: (prettyChars (level + 1) d ++ prettyFields level rest)))
end

def compact (d : Doc) : String := String.ofList (compactChars d)

def pretty (d : Doc) : String := String.ofList (prettyChars 0 d)

end FlowArtifact.Json
