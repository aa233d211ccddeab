import FlowArtifact.Error

/-!
# Component identifiers

The identifier of a component type is a namespace and a name, written with `:` between them. A text
without `:` is a name in the default namespace.
-/

namespace FlowArtifact

structure Identifier where
  «namespace» : String
  name : String
deriving DecidableEq, Inhabited

namespace Identifier

/-- The namespace of an identifier that gives none. -/
def defaultNamespace : String := "mule"

def text (i : Identifier) : String := i.namespace ++ ":" ++ i.name

/-- Reads a written identifier; only the first `:` separates. -/
def parse (text : String) : Except Error Identifier :=
  let (first, others) := Text.cut ':' text.toList
  let i : Identifier := match others with
    | [] => ⟨defaultNamespace, text⟩
    | part :: rest => ⟨String.ofList first, String.ofList (Text.glue ':' part rest)⟩
  if i.namespace = "" ∨ i.name = "" then .error (.invalidStructure text .badIdentifier) else .ok i

end Identifier

end FlowArtifact
