import FlowArtifact.Misfit
import FlowArtifact.NameMap

/-!
# Fields of a record

A writer leaves out the fields that say nothing. The fields of a record are read in their order. A
field that is known is read once and a second one of its name is refused; fields that are not known
are passed over. A key that is not a text may still be the number of a known field.
-/

namespace FlowArtifact

/-- A field that is left out when there is nothing to say. -/
def optionalField {α : Type} (name : String) (write : α → Doc) : Option α → List (String × Doc)
  | none => []
  | some a => [(name, write a)]

/-- A field with a list, left out when the list is empty. -/
def listField (name : String) (items : List Doc) : List (String × Doc) :=
  if items.isEmpty then [] else [(name, .list items)]

namespace Doc

/-- The known field that a key names, `none` for a field that is passed over. -/
def fieldName (known : List String) : Head → Fit (Option String)
  | .scalar (.text s) => .ok (if s ∈ known then some s else none)
  | .scalar (.int n) =>
    if 0 ≤ n.val then .ok known[n.val.toNat]?
    else .error (.wrongType (.scalar (.int n)) "field identifier")
  | key => .error (.wrongType key "field identifier")

/-- The known field that a key names, where numbers name none. -/
def textFieldName (known : List String) (key : Head) : Fit (Option String) := do
  match key with
  | .scalar (.int n) =>
    if 0 ≤ n.val then pure none else fieldName known key
  | _ => fieldName known key

/-- Reads the known fields one after another into `init`; also gives the names that were there. -/
def readFields {σ : Type} (nameOf : Head → Fit (Option String))
    (set : String → Doc → σ → Fit σ) (seen : List String) (init : σ) :
    List (Head × Doc) → Fit (σ × List String)
  | [] => .ok (init, seen)
  | (key, d) :: rest => do
    match ← nameOf key with
    | none => readFields nameOf set seen init rest
    | some name =>
      if name ∈ seen then throw (.duplicate name)
      else
        let next ← set name d init
        readFields nameOf set (name :: seen) next rest

def require (names seen : List String) : Fit Unit :=
  match names.find? (· ∉ seen) with
  | none => .ok ()
  | some name => .error (.missing name)

def asText : Doc → Fit String
  | .scalar (.text s) => .ok s
  | d => .error (.wrongType d.head "a string")

/-- A text that may be left out by a null. -/
def asOptionalText : Doc → Fit (Option String)
  | .scalar .null => .ok none
  | d => (asText d).map some

def asList : Doc → Fit (List Doc)
  | .list items => .ok items
  | d => .error (.wrongType d.head "a sequence")

def readEntries {α : Type} (read : Doc → Fit α) (found : NameMap α) :
    List (Head × Doc) → Fit (NameMap α)
  | [] => .ok found
  | (key, d) :: rest => do
    match key.name? with
    | none => throw (.wrongType key "a string")
    | some name =>
      let a ← read d
      readEntries read (found.insert name a) rest

/-- The entries of a map from names; a later entry replaces an earlier one. -/
def asNameMap {α : Type} (read : Doc → Fit α) : Doc → Fit (NameMap α)
  | .record fields => readEntries read .empty fields
  | d => .error (.wrongType d.head "a map")

/-- A list that stands for a record: too many items for `count` fields. -/
def tooLong (length count : Nat) : Misfit :=
  .wrongLength length
    (if count = 1 then "1 element in sequence" else s!"{count} elements in sequence")

end Doc

end FlowArtifact
