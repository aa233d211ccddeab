import FlowArtifact.Location

/-!
# Building locations

A builder holds a global name and the parts behind it. Builders are values: each operation gives a
new builder or an error, and a builder can be continued in several ways. The main operations are
`Location.Builder.build` and `Location.parse`, which replays the parts of a written location.
-/

namespace FlowArtifact.Location

structure Builder where
  globalName : Option String := none
  /-- The parts, the last one first. -/
  path : List String := []
deriving DecidableEq, Inhabited

namespace Builder

def empty : Builder := {}

def requireGlobalName (b : Builder) (operation : Operation) : Except Error String :=
  match b.globalName with
  | some name => .ok name
  | none => .error (.missingGlobalName operation)

/-- Sets the global name, which can be done once. -/
def setGlobalName (b : Builder) (name : String) : Except Error Builder :=
  match b.globalName with
  | some current => .error (.globalNameAlreadySet current)
  | none => do
    checkGlobalName name
    pure { globalName := some name, path := [] }

/-- Appends a part without looking at it. -/
def push (b : Builder) (part : String) : Builder := { b with path := part :: b.path }

/-- The part may follow the last one: a number must follow `processors`, and none a number. -/
def checkNext (b : Builder) (part : String) : Except Error Unit :=
  match b.path with
  | [] => .ok ()
  | last :: _ =>
    if last = Token.processors.text ∧ !isNumeric part then .error (.nonNumericProcessor part)
    else if isNumeric part ∧ isNumeric last then .error (.consecutiveIndex part last)
    else .ok ()

def addPart (b : Builder) (part : String) : Except Error Builder := do
  let _ ← b.requireGlobalName .addingPart
  checkText .part part
  b.checkNext part
  pure (b.push part)

def addToken (b : Builder) (t : Token) : Except Error Builder := do
  let _ ← b.requireGlobalName (.addingToken t)
  pure (b.push t.text)

/-- Appends an index, which may not follow another one. -/
def addIndex (b : Builder) (n : Nat) : Except Error Builder := do
  let _ ← b.requireGlobalName .addingIndex
  let index := String.ofList (digitChars n)
  match b.path with
  | last :: _ =>
    if isNumeric last then throw (.consecutiveIndex index last) else pure (b.push index)
  | [] => pure (b.push index)

def build (b : Builder) : Except Error Location := do
  let name ← b.requireGlobalName .building
  pure ⟨name, b.path.reverse⟩

def ofText (text : String) : Except Error Builder := do
  let (name, parts) := Text.split separator text
  let b ← empty.setGlobalName name
  parts.foldlM addPart b

end Builder

def parse (text : String) : Except Error Location := do
  (← Builder.ofText text).build

end FlowArtifact.Location
