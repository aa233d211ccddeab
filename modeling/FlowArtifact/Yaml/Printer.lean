import FlowArtifact.Yaml.Style
import FlowArtifact.Yaml.Wording

/-!
# Writing YAML

Lists and records are written as blocks, two columns further in for each level, except that a list
in a field stands as deep as its field. Empty lists and records are written in brackets. A long key,
or one of several lines, has a line of its own. The main operation is `Yaml.print`.
-/

namespace FlowArtifact.Yaml

/-- A text that is being written: its characters from the last one, and whether it stands at the
beginning of a line. -/
structure Sheet where
  chars : List Char := []
  isFresh : Bool := true

namespace Sheet

/-- Writes characters that do not end a line. -/
def write (s : Sheet) (cs : List Char) : Sheet := ⟨cs.reverse ++ s.chars, false⟩

def line (s : Sheet) (indent : Nat) : Sheet :=
  (if s.isFresh then s else s.write ['\n']).write (padding indent)

def writeText (s : Sheet) (indent : Nat) (style : Style) (text : String) : Sheet :=
  let next := s.write (textChars indent style text)
  { next with isFresh := next.chars.head?.any isBreak }

end Sheet

def scalarChars : Scalar → List Char
  | .null => "null".toList
  | .bool true => "true".toList
  | .bool false => "false".toList
  | .int n => intChars n.val
  | .real x =>
    if x.isNaN then ".nan".toList
    else if x.isFinite then (x.text layout).toList
    else if x.isNegative then "-.inf".toList
    else ".inf".toList
  | .text s => s.toList

def Sheet.writeScalar (s : Sheet) (indent : Nat) : Scalar → Sheet
  | .text t => s.writeText indent (.ofText t) t
  | x => s.write (scalarChars x)

def keyScalar : Head → Scalar
  | .scalar s => s
  | _ => .null

/-- A key that can stand in front of its colon: it is short and has no line breaks. -/
def isShortKey : Scalar → Bool
  | .text t => t.utf8ByteSize ≤ 128 && !t.toList.any isBreak
  | _ => true

mutual
/-- Writes a document behind the sign of an item in a list at a column. -/
def writeItem (indent : Nat) (s : Sheet) : Doc → Sheet
  | .scalar x => (s.write [' ']).writeScalar (indent + 2) x
  | .minusZero => s.write " -0".toList
  | .list [] => s.write " []".toList
  | .record [] => s.write " \x7b\x7d".toList
  | .list (d :: rest) => writeItems (indent + 2) (s.write [' ']) true (d :: rest)
  | .record ((key, d) :: rest) =>
    writeFields (indent + 2) (s.write [' ']) true ((key, d) :: rest)

/-- Writes a document behind the key of a field in a record at a column. -/
def writeField (indent : Nat) (s : Sheet) : Doc → Sheet
  | .scalar x => (s.write [' ']).writeScalar (indent + 2) x
  | .minusZero => s.write " -0".toList
  | .list [] => s.write " []".toList
  | .record [] => s.write " \x7b\x7d".toList
  | .list (d :: rest) => writeItems indent s false (d :: rest)
  | .record ((key, d) :: rest) => writeFields (indent + 2) s false ((key, d) :: rest)

/-- Writes the items of a list at a column; the first one may stand where the sheet is. -/
def writeItems (indent : Nat) (s : Sheet) (isHere : Bool) : List Doc → Sheet
  | [] => s
  | d :: rest =>
    let s := if isHere then s else s.line indent
    writeItems indent (writeItem indent (s.write ['-']) d) false rest

def writeFields (indent : Nat) (s : Sheet) (isHere : Bool) : List (Head × Doc) → Sheet
  | [] => s
  | (key, d) :: rest =>
    let s := if isHere then s else s.line indent
    let key := keyScalar key
    let s :=
      if isShortKey key then
        writeField indent ((s.writeScalar (indent + 2) key).write [':']) d
      else
        writeItem indent
          ((((s.write ['?', ' ']).writeScalar (indent + 2) key).line indent).write [':']) d
    writeFields indent s false rest
end

def Sheet.ofDoc : Doc → Sheet
  | .scalar x => Sheet.writeScalar {} 2 x
  | .minusZero => Sheet.write {} "-0".toList
  | .list [] => Sheet.write {} "[]".toList
  | .record [] => Sheet.write {} "\x7b\x7d".toList
  | .list (d :: rest) => writeItems 0 {} true (d :: rest)
  | .record ((key, d) :: rest) => writeFields 0 {} true ((key, d) :: rest)

def docChars (d : Doc) : List Char :=
  let s := Sheet.ofDoc d
  (if s.isFresh then s else s.write ['\n']).chars.reverse

def print (d : Doc) : String := String.ofList (docChars d)

end FlowArtifact.Yaml
