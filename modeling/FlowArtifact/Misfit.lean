import FlowArtifact.Doc
import FlowArtifact.Text.Quoted

/-!
# Misfits

A document that is well written may still not be what was asked for. A misfit says in which way.
Its wording names what was found and what was expected; the name of the missing value and the
spelling of doubles depend on the text format.
-/

namespace FlowArtifact

/-- The way in which a document is not what was asked for. -/
inductive Misfit where
  | wrongType (found : Head) (expected : String)
  | wrongValue (found : Head) (expected : String)
  | wrongLength (length : Nat) (expected : String)
  | missing (field : String)
  | duplicate (field : String)
  | unknownVariant (name : String) (known : List String)
  /-- None of the forms of a parameter value. -/
  | noForm
  /-- A parameter value of another kind than an object. -/
  | notAnObject (kind : String)
  /-- A tag of its own where only plain content can stand. -/
  | tagInContent
  /-- A text that is refused for a reason of its own. -/
  | refused (reason : String)
deriving DecidableEq, Inhabited

structure Wording.Names where
  null : String
  real : Double → String

namespace Head

def found (names : Wording.Names) : Head → String
  | .scalar .null => names.null
  | .scalar (.bool b) => s!"boolean `{b}`"
  | .scalar (.int n) => s!"integer `{n.val}`"
  | .scalar (.real x) => s!"floating point `{names.real x}`"
  | .scalar (.text s) => "string " ++ Text.quoted s
  | .list => "sequence"
  | .record => "map"
  | .minusZero => "integer `0`"
  | .wide n => if n < 0 then s!"integer `{n}` as i128" else s!"integer `{n}` as u128"
  | .tagged => "enum"

end Head

namespace Misfit

def variants : List String → String
  | [] => "there are no variants"
  | [a] => s!"expected `{a}`"
  | [a, b] => s!"expected `{a}` or `{b}`"
  | known => "expected one of " ++ ", ".intercalate (known.map fun a => s!"`{a}`")

def message (names : Wording.Names) : Misfit → String
  | wrongType f expected => s!"invalid type: {f.found names}, expected {expected}"
  | wrongValue f expected => s!"invalid value: {f.found names}, expected {expected}"
  | wrongLength n expected => s!"invalid length {n}, expected {expected}"
  | missing field => s!"missing field `{field}`"
  | duplicate field => s!"duplicate field `{field}`"
  | unknownVariant name known => s!"unknown variant `{name}`, {variants known}"
  | noForm => "data did not match any variant of untagged enum ParameterValueRepr"
  | notAnObject kind => s!"expected an object value, found a {kind} value"
  | tagInContent => "untagged and internally tagged enums do not support enum input"
  | refused reason => reason

end Misfit

abbrev Fit (α : Type) := Except Misfit α

end FlowArtifact
