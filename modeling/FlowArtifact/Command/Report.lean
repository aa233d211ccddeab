/-!
# Reports of failed commands
-/

namespace FlowArtifact

/-- Why a command fails: what could not be done, and what was in its way. -/
structure Report where
  message : String
  cause : Option String := none
deriving DecidableEq

namespace Report

def setOff (text : String) : String :=
  "    " ++ String.join (text.toList.map fun c => if c = '\n' then "\n    " else c.toString)

def text (r : Report) : String :=
  "Error: " ++ r.message ++
    match r.cause with
    | some cause => "\n\nCaused by:\n" ++ setOff cause
    | none => ""

end Report

end FlowArtifact
