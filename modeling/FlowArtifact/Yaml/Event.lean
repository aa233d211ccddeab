import FlowArtifact.Yaml.Token

/-!
# Events of a YAML text

The nodes of a text one after another: a list or record has a start and an end, and between them
its items, or its keys and values by turns.
-/

namespace FlowArtifact.Yaml

/-- What a node has in front of it. -/
structure Properties where
  anchor : Option String := none
  tag : Option Uri := none
deriving DecidableEq

inductive Event where
  | documentStart
  | documentEnd
  | streamEnd (m : Mark)
  | alias (m : Mark) (name : String)
  | scalar (m : Mark) (properties : Properties) (text : String) (isPlain : Bool)
  | listStart (m : Mark) (properties : Properties)
  | listEnd
  | recordStart (m : Mark) (properties : Properties)
  | recordEnd
deriving DecidableEq

end FlowArtifact.Yaml
