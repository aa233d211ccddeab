import FlowArtifact.Value
import FlowArtifact.Doc.Fields

/-!
# Documents of values

A plain text is a text, a list of values is a list, and every other value is a record whose `type`
says what it is. The reader takes everything that the writer gives and some more: the number of a
type for its name, and a list whose first item is a type and that is no list of values.
-/

namespace FlowArtifact

inductive ValueType where
  | cdata
  | object
deriving DecidableEq

namespace Value

def toDoc (v : Value) : Doc :=
  v.fold
    (fun s =>
      if s.isCdata then .named [("type", .text "cdata"), ("value", .text s.text)]
      else .text s.text)
    (fun items => .list items)
    (fun typeId fields => .named
      (("type", .text "object") :: (typeId.toList.map fun t => ("typeId", .text t)) ++
        [("parameters", .named fields)]))

/-- The type that a document names, by its name or its number. -/
def typeOf? : Doc → Option ValueType
  | .scalar (.text "cdata") => some .cdata
  | .scalar (.text "object") => some .object
  | .scalar (.int n) =>
    if n.val = 0 then some .cdata else if n.val = 1 then some .object else none
  | _ => none

def typeKey : Head := .scalar (.text "type")

/-- The type that a record gives, if it gives one and only one. -/
def typeField? (fields : List (Head × Doc)) : Option ValueType :=
  match fields.filter (·.1 = typeKey) with
  | [(_, d)] => typeOf? d
  | _ => none

/-- A known field among those behind the type, `some none` for one that is passed over. -/
def fieldName? (known : List String) (key : Head) : Option (Option String) :=
  if key = typeKey then some none else (Doc.fieldName known key).toOption

def cdataField? (found : Option String) : List (Head × Doc) → Option String
  | [] => found
  | (key, d) :: rest => do
    match ← fieldName? ["value"] key with
    | none => cdataField? found rest
    | some _ =>
      match found, d with
      | none, .scalar (.text s) => cdataField? (some s) rest
      | _, _ => none

def typeId? : Doc → Option (Option String)
  | .scalar .null => some none
  | .scalar (.text s) => some (some s)
  | _ => none

mutual
def ofDoc? : Doc → Option Value
  | .scalar (.text s) => some (simple s)
  | .scalar _ | .minusZero => none
  | .list items =>
    match ofItems? items with
    | some values => some (list values)
    | none => ofTypedItems? items
  | .record fields =>
    match typeField? fields with
    | some .cdata => (cdataField? none fields).map fun s => .leaf (.verbatim s)
    | some .object => objectFields? none none fields
    | none => none

def ofItems? : List Doc → Option (List Value)
  | [] => some []
  | d :: rest => do
    let v ← ofDoc? d
    let vs ← ofItems? rest
    pure (v :: vs)

/-- A list that begins with the type of its value. -/
def ofTypedItems? : List Doc → Option Value
  | [type, .scalar (.text s)] =>
    match typeOf? type with
    | some .cdata => some (.leaf (.verbatim s))
    | some .object => some (.record (some s) .empty)
    | none => none
  | [type] => if typeOf? type = some .object then some (.record none .empty) else none
  | [type, id] =>
    if typeOf? type = some .object then (typeId? id).map fun id => .record id .empty else none
  | [type, id, parameters] =>
    if typeOf? type = some .object then do
      let id ← typeId? id
      pure (.record id (← parameters? parameters))
    else none
  | _ => none

def objectFields? (typeId : Option (Option String)) (parameters : Option (NameMap Value)) :
    List (Head × Doc) → Option Value
  | [] => some (.record (typeId.getD none) (parameters.getD .empty))
  | (key, d) :: rest => do
    match ← fieldName? ["typeId", "parameters"] key with
    | none => objectFields? typeId parameters rest
    | some name =>
      if name = "typeId" then
        match typeId with
        | some _ => none
        | none => objectFields? (some (← typeId? d)) parameters rest
      else
        match parameters with
        | some _ => none
        | none => objectFields? typeId (some (← parameters? d)) rest

def parameters? : Doc → Option (NameMap Value)
  | .record fields => entries? .empty fields
  | _ => none

def entries? (found : NameMap Value) : List (Head × Doc) → Option (NameMap Value)
  | [] => some found
  | (key, d) :: rest => do
    let v ← ofDoc? d
    entries? (found.insert (← key.name?) v) rest
end

def ofDoc (d : Doc) : Fit Value :=
  match ofDoc? d with
  | some v => .ok v
  | none => .error .noForm

end Value

namespace ObjectValue

def toDoc (o : ObjectValue) : Doc := o.toValue.toDoc

def ofDoc (d : Doc) : Fit ObjectValue := do
  let v ← Value.ofDoc d
  match v.asObject? with
  | some o => pure o
  | none => throw (.notAnObject v.kind.name)

end ObjectValue

end FlowArtifact
