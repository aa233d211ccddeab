import FlowArtifact.Doc.Fields
import FlowArtifact.Source

/-!
# Reading records straight from their source

A `Form` says how a record is read: its name in messages and its fields in order, each of which
changes the value that is being read. A record may also be given by the list of its fields' values
without their names. Fields that are not known are passed over.
-/

namespace FlowArtifact

/-- A field of a record: whether it must be there, and how it is read into a value. -/
structure Form.Field (σ : Type) where
  name : String
  isRequired : Bool
  read : (room : Nat) → Source → Read (σ → σ)

structure Form (σ : Type) where
  name : String
  fields : List (Form.Field σ)

namespace Form

variable {σ : Type}

def lengthExpectation (form : Form σ) : String :=
  let n := form.fields.length
  let elements := if n = 1 then "element" else "elements"
  s!"{form.name} with {n} {elements}"

def missing (form : Form σ) (seen : List String) : Option String :=
  ((form.fields.filter (·.isRequired)).map (·.name)).find? (· ∉ seen)

def readFields (form : Form σ) (room : Nat) (seen : List String) (a : σ) : Fields → Read σ
  | .closed place =>
    match form.missing seen with
    | some name => throw (.misfit (.missing name) place)
    | none => pure a
  | .broken b => throw b.fault
  | .field key keyed value left rest =>
    match key.asText? with
    | none => throw (key.unexpected "field identifier")
    | some name =>
      match form.fields.find? (·.name = name) with
      | none => do
        value.skip
        readFields form room seen a rest
      | some field =>
        if name ∈ seen then throw (.misfit (.duplicate name) keyed)
        else do
          let set ← Read.settle left (field.read room value)
          readFields form room (name :: seen) (set a) rest

def readEnd (left : Place) : Items → Read Unit
  | .closed _ => pure ()
  | .item .. =>
    throw ⟨.json .trailingCharacters, some { left with column := left.column + 1 }⟩
  | .broken b =>
    match b.fault.cause with
    | .json .endInList | .json .trailingComma => throw b.fault
    | _ => throw { b.fault with cause := .json .trailingCharacters }

/-- Reads the values of a list one after another into `a`; `index` values were read before. -/
def readItems (form : Form σ) (room index : Nat) (a : σ) (left : Place) :
    List (Field σ) → Items → Read σ
  | [], items => do
    readEnd left items
    pure a
  | field :: fields, .closed place =>
    if field.isRequired then throw (.misfit (.wrongLength index form.lengthExpectation) place)
    else readItems form room (index + 1) a left fields (.closed place)
  | _, .broken b => throw b.fault
  | field :: fields, .item s left rest => do
    let set ← Read.settle left (field.read room s)
    readItems form room (index + 1) (set a) left fields rest

/-- Reads a record into `a`, which may have `room` levels of lists and records. -/
def read (form : Form σ) (a : σ) (room : Nat) (s : Source) : Read σ :=
  match s, room with
  | .list spot _, 0 | .record spot _, 0 => throw ⟨.tooDeep, some spot.deep⟩
  | .list spot items, room + 1 => readItems form room 0 a spot.place form.fields items
  | .record _ fields, room + 1 => readFields form room [] a fields
  | s, _ => throw (s.unexpected form.name)

end Form

namespace Source

def text (s : Source) : Read String :=
  match s.asText? with
  | some text => pure text
  | none => throw (s.unexpected "a string")

/-- A source that may be left out by a null. -/
def optional {α : Type} (read : Source → Read α) : Source → Read (Option α)
  | .scalar _ (.ok (.scalar .null)) _ _ => pure none
  | s => do pure (some (← read s))

/-- A number of 32 bits without sign. -/
def word (s : Source) : Read UInt32 :=
  match s with
  | .scalar spot (.ok (.scalar (.int n))) _ _ =>
    if 0 ≤ n.val ∧ n.val < 4294967296 then pure (UInt32.ofNat n.val.toNat)
    else throw (.misfit (.wrongValue (.scalar (.int n)) "u32") spot.place)
  | .scalar _ (.ok .minusZero) _ _ => pure 0
  | s => throw (s.unexpected "u32")

def items {α : Type} (read : Nat → Source → Read α) (room : Nat) : Items → Read (List α)
  | .closed _ => pure []
  | .broken b => throw b.fault
  | .item s left rest => do
    let a ← Read.settle left (read room s)
    let as ← items read room rest
    pure (a :: as)

def listOf {α : Type} (read : Nat → Source → Read α) (room : Nat) (s : Source) :
    Read (List α) :=
  match s, room with
  | .list spot _, 0 => throw ⟨.tooDeep, some spot.deep⟩
  | .list _ parts, room + 1 => items read room parts
  | s, _ => throw (s.unexpected "a sequence")

end Source

end FlowArtifact
