import FlowArtifact.Nest
import FlowArtifact.Text.Affix

/-!
# Parameter values

A parameter value is a simple text, a list of values, or an object: values under names, with an
optional type id. A simple text is plain or a CDATA section; a text that is wrapped as a CDATA
section from its first to its last character is never plain.
-/

namespace FlowArtifact

namespace Cdata

def opening : List Char := "<![CDATA[".toList

def closing : List Char := "]]>".toList

/-- The text inside a CDATA wrapper, if all of `text` is wrapped. -/
def unwrap? (text : String) : Option String := do
  let rest ← Text.dropStart? opening text.toList
  let inner ← Text.dropEnd? closing rest
  pure (String.ofList inner)

/-- Takes away one opening and one closing, each if it is there. -/
def strip (text : String) : String :=
  let rest := (Text.dropStart? opening text.toList).getD text.toList
  String.ofList ((Text.dropEnd? closing rest).getD rest)

def wrap (text : String) : String := String.ofList (opening ++ text.toList ++ closing)

end Cdata

/-- A text, plain or a CDATA section without its wrapper. -/
structure Simple where
  text : String
  isCdata : Bool
  plain_unwrapped : isCdata = false → Cdata.unwrap? text = none
deriving DecidableEq

namespace Simple

/-- A CDATA section with exactly this text. -/
def verbatim (text : String) : Simple := ⟨text, true, nofun⟩

/-- A text: a CDATA section if it is wrapped as one, plain otherwise. -/
def ofText (text : String) : Simple :=
  match h : Cdata.unwrap? text with
  | some inner => verbatim inner
  | none => ⟨text, false, fun _ => h⟩

/-- A CDATA section, its wrapper taken away as far as it is there. -/
def cdata (text : String) : Simple := verbatim (Cdata.strip text)

def display (s : Simple) : String := if s.isCdata then Cdata.wrap s.text else s.text

end Simple

instance : Inhabited Simple := ⟨Simple.ofText ""⟩

/-- A parameter value. An object is a record whose tag is its type id. -/
abbrev Value := Nest Simple (Option String)

structure ObjectValue where
  typeId : Option String := none
  parameters : NameMap Value := .empty
deriving Inhabited

namespace Value

def simple (text : String) : Value := .leaf (.ofText text)

def cdata (text : String) : Value := .leaf (.cdata text)

def list (items : List Value) : Value := Nest.list items

/-- An object value; a later parameter replaces an earlier one of the same name. -/
def object (typeId : Option String) (parameters : List (String × Value)) : Value :=
  .record typeId (.ofList parameters)

inductive Kind where
  | simple
  | list
  | object
deriving DecidableEq

def Kind.name : Kind → String
  | simple => "Simple"
  | list => "List"
  | object => "Object"

def kind (v : Value) : Kind :=
  match v.view with
  | .leaf _ => .simple
  | .list _ => .list
  | .record _ _ => .object

def asSimple? (v : Value) : Option Simple :=
  match v.view with
  | .leaf s => some s
  | _ => none

def asList? (v : Value) : Option (List Value) :=
  match v.view with
  | .list items => some items
  | _ => none

def asObject? (v : Value) : Option ObjectValue :=
  match v.view with
  | .record typeId parameters => some ⟨typeId, parameters⟩
  | _ => none

instance : BEq Value := ⟨Nest.same (· == ·)⟩

def display (v : Value) : String :=
  v.fold Simple.display
    (fun items => "[" ++ ", ".intercalate items ++ "]")
    (fun typeId fields =>
      let type := match typeId with
        | none => ""
        | some t => "<" ++ t ++ ">"
      "\x7b" ++ type ++ ", ".intercalate (fields.map fun e => e.1 ++ "=" ++ e.2) ++ "\x7d")

end Value

namespace ObjectValue

def toValue (o : ObjectValue) : Value := .record o.typeId o.parameters

def depth (o : ObjectValue) : Nat := o.toValue.depth

end ObjectValue

end FlowArtifact
