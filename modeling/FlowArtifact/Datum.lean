import FlowArtifact.Nest
import FlowArtifact.Doc.Fields

/-!
# Data without a schema

Metadata and annotations are opaque: scalars, lists, and records in the order of their names.
A number that is infinite or no number is null.
-/

namespace FlowArtifact

/-- Data without a schema. -/
abbrev Datum := Nest Scalar Unit

namespace Datum

/-- The same scalar; doubles are compared as numbers. -/
def sameScalar : Scalar → Scalar → Bool
  | .real x, .real y => x.same y
  | a, b => a = b

instance : BEq Datum := ⟨Nest.same sameScalar⟩

def toDoc (v : Datum) : Doc :=
  v.fold .scalar .list fun _ fields => .named fields

def ofScalar : Scalar → Datum
  | .real x => .leaf (if x.isFinite then .real x else .null)
  | s => .leaf s

mutual
/-- The datum that a document is: every document, if its keys are texts. -/
def ofDoc : Doc → Fit Datum
  | .scalar s => .ok (ofScalar s)
  | .minusZero => .ok (.leaf (.int default))
  | .list items => do pure (.list (← ofItems items))
  | .record fields => do pure (.record () (← ofFields true .empty fields))

def ofItems : List Doc → Fit (List Datum)
  | [] => .ok []
  | d :: rest => do
    let v ← ofDoc d
    let vs ← ofItems rest
    pure (v :: vs)

def ofFields (isFirst : Bool) (found : NameMap Datum) :
    List (Head × Doc) → Fit (NameMap Datum)
  | [] => .ok found
  | (key, d) :: rest => do
    match key.name? with
    | none => throw (.wrongType key (if isFirst then "a string key" else "a string"))
    | some name =>
      let v ← ofDoc d
      ofFields false (found.insert name v) rest
end

end Datum

end FlowArtifact
