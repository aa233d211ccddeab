import FlowArtifact.Number.Integer
import FlowArtifact.Number.Double

/-!
# Documents

A `Doc` is what a text says once its notation is gone: scalars, lists, and records whose fields
stand in the order of the text, repeated keys included. Both text formats read to it and write from
it, so everything that a text can say about an artifact is said here once.
-/

namespace FlowArtifact

inductive Scalar where
  | null
  | bool (b : Bool)
  | int (n : Integer64)
  | real (x : Double)
  | text (s : String)
deriving DecidableEq, Inhabited

/-- The top of a document: its scalar, or the mere fact that it is a list or a record. Keys are
known by their top alone. -/
inductive Head where
  | scalar (s : Scalar)
  | list
  | record
  /-- Zero with a minus sign. -/
  | minusZero
  /-- An integer that does not fit a document. -/
  | wide (n : Int)
  /-- Something with a tag of its own. -/
  | tagged
deriving DecidableEq, Inhabited

inductive Doc where
  | scalar (s : Scalar)
  /-- The integer zero, written with a minus sign: it is a datum but numbers nothing. -/
  | minusZero
  | list (items : List Doc)
  | record (fields : List (Head × Doc))
deriving Inhabited

def Head.name? : Head → Option String
  | .scalar (.text s) => some s
  | _ => none

namespace Doc

def text (s : String) : Doc := .scalar (.text s)

def named (fields : List (String × Doc)) : Doc :=
  .record (fields.map fun e => (.scalar (.text e.1), e.2))

def head : Doc → Head
  | .scalar s => .scalar s
  | .minusZero => .minusZero
  | .list _ => .list
  | .record _ => .record

mutual
/-- Levels of lists and records; a scalar has none. -/
def nesting : Doc → Nat
  | .scalar _ | .minusZero => 0
  | .list items => 1 + nestingItems items
  | .record fields => 1 + nestingFields fields

def nestingItems : List Doc → Nat
  | [] => 0
  | d :: rest => max d.nesting (nestingItems rest)

def nestingFields : List (Head × Doc) → Nat
  | [] => 0
  | (_, d) :: rest => max d.nesting (nestingFields rest)
end

end Doc

end FlowArtifact
