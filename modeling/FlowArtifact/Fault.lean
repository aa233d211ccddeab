import FlowArtifact.Misfit
import FlowArtifact.Json.Flaw
import FlowArtifact.Yaml.Problem

/-!
# Faults of a text

A fault is a cause and, when it is known, the place in the text where it shows: a document that
does not fit, or a text that is not a document. A misfit is found without a place and receives the
place of the innermost part that was being read straight from the text: the first place stays.
-/

namespace FlowArtifact

/-- A place in a text: line and column as messages show them, and the path that leads to it. -/
structure Place where
  line : Nat
  column : Nat
  path : String := "."
deriving DecidableEq, Inhabited

inductive Cause where
  | misfit (m : Misfit)
  | json (flaw : Json.Flaw)
  | yaml (problem : Yaml.Problem)
  /-- Lists and records are nested deeper than the reader follows. -/
  | tooDeep
deriving DecidableEq

structure Fault where
  cause : Cause
  place : Option Place := none
deriving DecidableEq

structure Wording extends Wording.Names where
  /-- A place at the very start of the text is left out. -/
  omitsStart : Bool

namespace Fault

def message (w : Wording) (f : Fault) : String :=
  let text :=
    match f.cause with
    | .misfit m => m.message w.toNames
    | .json flaw => flaw.message
    | .yaml problem => problem.message
    | .tooDeep => "recursion limit exceeded"
  let behind :=
    match f.cause with
    | .yaml problem => problem.context
    | _ => ""
  match f.place with
  | none => text ++ behind
  | some p =>
    let path := if p.path = "." then "" else p.path ++ ": "
    let position :=
      if w.omitsStart && p.line = 1 && p.column = 1 then ""
      else s!" at line {p.line} column {p.column}"
    path ++ text ++ position ++ behind

def settle (p : Place) (f : Fault) : Fault :=
  match f.place with
  | none => { f with place := some p }
  | some _ => f

def misfit (m : Misfit) (p : Place) : Fault := ⟨.misfit m, some p⟩

end Fault

abbrev Read (α : Type) := Except Fault α

/-- Faults without a place receive one. -/
def Read.settle {α : Type} (p : Place) : Read α → Read α
  | .ok a => .ok a
  | .error f => .error (f.settle p)

def Fit.toRead {α : Type} : Fit α → Read α
  | .ok a => .ok a
  | .error m => .error ⟨.misfit m, none⟩

end FlowArtifact
