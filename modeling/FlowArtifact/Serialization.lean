import FlowArtifact.Declaration.Reading
import FlowArtifact.Declaration.Validity
import FlowArtifact.Digest
import FlowArtifact.Json.Printer
import FlowArtifact.Text.Blank
import FlowArtifact.Yaml.Printer
import FlowArtifact.Yaml.Reader

/-!
# Artifacts as texts

Artifacts are written in either format and read back. What is read is checked before it is given to
the caller. A text that is no artifact is reported with the part of its line around the column of
the fault. The fingerprint of an artifact is the digest of its compact JSON text.
-/

namespace FlowArtifact

namespace Format

def reading (format : Format) (text : String) : Reading :=
  match format with
  | json => Json.read text
  | yaml => Yaml.read text

def maxNesting : Format → Nat
  | json => Json.maxNesting
  | yaml => Yaml.maxNesting

/-- What the document of a text fits. What stands behind a JSON value is looked at last; a YAML text
is known to hold nothing but its document before the document is looked at. -/
def readDoc {α : Type} (format : Format) (fit : Doc → Fit α) (text : String) : Read α :=
  let content := Source.content format.maxNesting
  let r := format.reading text
  match format with
  | json => r.take fun s => do (fit (← content s)).toRead
  | yaml => do (fit (← r.take content)).toRead

/-- A document as a text. Indentation is a choice in JSON only. -/
def write (format : Format) (indented : Bool) (d : Doc) : String :=
  match format with
  | json => if indented then Json.pretty d else Json.compact d
  | yaml => Yaml.print d

end Format

def fragmentWidth : Nat := 40

def window (line : List Char) (column : Nat) : List Char :=
  (line.drop (column - (1 + fragmentWidth / 2))).take fragmentWidth

/-- The part of a text around a place, without the blanks at its ends. Line 0 is no line. -/
def fragment (text : String) (line column : Nat) : String :=
  let source := if line = 0 then [] else ((Text.lines text.toList)[line - 1]?).getD []
  String.ofList (Text.trim (window source column))

def malformed (format : Format) (text : String) (f : Fault) : Error :=
  let (line, column) := match f.place with
    | some p => (p.line, p.column)
    | none => (0, 0)
  .malformed line column (f.message format.wording) (fragment text line column)

namespace Artifact

/-- The artifact of a text, before it is checked. -/
def read (format : Format) (text : String) : Read Artifact :=
  (format.reading text).take (ofSource format.maxNesting)

def deserialize (format : Format) (text : String) : Except Error Artifact := do
  let a ← (read format text).mapError (malformed format text)
  a.validate
  pure a

def serialize (format : Format) (indented : Bool) (a : Artifact) : String :=
  format.write indented a.toDoc

/-- The digest of the compact JSON text. -/
def fingerprint (a : Artifact) : String :=
  Digest.sha256 (Json.compact a.toDoc).toUTF8.toList

end Artifact

namespace Value

def read (format : Format) (text : String) : Read Value := format.readDoc ofDoc text

end Value

namespace ObjectValue

def read (format : Format) (text : String) : Read ObjectValue := format.readDoc ofDoc text

end ObjectValue

end FlowArtifact
