import FlowArtifact.Yaml.Cursor

/-!
# Tokens of a YAML text
-/

namespace FlowArtifact.Yaml

/-- The octets of a tag or of its beginning, which need not be the encoding of a text. -/
structure Uri where
  octets : List UInt8
deriving DecidableEq, Inhabited

namespace Uri

/-- The octets before the first zero, which ends a tag. -/
def ofOctets (octets : List UInt8) : Uri := ⟨octets.takeWhile (· ≠ 0)⟩

def ofAscii (s : String) : Uri := ⟨s.toList.map Char.toUInt8⟩

def append (a b : Uri) : Uri := ⟨a.octets ++ b.octets⟩

def hasSign (u : Uri) : Bool := u.octets.head? = some '!'.toUInt8

def isText (u : Uri) : Bool := (String.fromUTF8? ⟨u.octets.toArray⟩).isSome

end Uri

/-- The tag of a node as it is written: a handle, which stands for the beginning of the tag, and
the rest. -/
structure WrittenTag where
  handle : String
  suffix : Uri
deriving DecidableEq

/-- What a token is. The starts and ends of blocks are implied by the indentation. -/
inductive Token.Kind where
  | version (major minor : Nat)
  | tagHandle (handle : String) (stem : Uri)
  | documentStart
  | documentEnd
  | blockListStart
  | blockRecordStart
  | blockEnd
  | flowListStart
  | flowListEnd
  | flowRecordStart
  | flowRecordEnd
  | blockEntry
  | flowEntry
  | key
  | value
  | alias (name : String)
  | anchor (name : String)
  | tag (t : WrittenTag)
  | scalar (text : String) (isPlain : Bool)
  | streamEnd
deriving DecidableEq

structure Token where
  start : Mark
  stop : Mark
  kind : Token.Kind
deriving DecidableEq

end FlowArtifact.Yaml
