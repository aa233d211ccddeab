import FlowArtifact.Fault

/-!
# How YAML words its faults and numbers
-/

namespace FlowArtifact.Yaml

/-- Numbers in messages are always positional. -/
def messageLayout : Double.Layout := ⟨fun _ => true, ""⟩

def messageReal (x : Double) : String :=
  if x.isNaN then "NaN"
  else if x.isFinite then x.text messageLayout
  else if x.isNegative then "-inf"
  else "inf"

def wording : Wording where
  null := "unit value"
  real := messageReal
  omitsStart := true

def layout : Double.Layout := ⟨Double.usual, ""⟩

end FlowArtifact.Yaml
