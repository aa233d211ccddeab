import FlowArtifact.Doc

/-!
# The meaning of plain scalars

A plain scalar is a null, a boolean, an integer, a double or a text, by how it is spelled. An
integer is decimal, or hexadecimal, octal or binary behind `0x`, `0o` or `0b`; a decimal number with
a zero in front is a text.
-/

namespace FlowArtifact.Yaml

def isNull (s : String) : Bool := s = "null" || s = "Null" || s = "NULL" || s = "~"

def bool? (s : String) : Option Bool :=
  if s = "true" ∨ s = "True" ∨ s = "TRUE" then some true
  else if s = "false" ∨ s = "False" ∨ s = "FALSE" then some false
  else none

def dropPlus : List Char → List Char
  | '+' :: rest => rest
  | cs => cs

def isSigned : List Char → Bool
  | '+' :: _ | '-' :: _ => true
  | _ => false

/-- Digits with a zero in front, which are no number. -/
def isPadded (cs : List Char) : Bool :=
  let digits := match cs with
    | '+' :: rest | '-' :: rest => rest
    | _ => cs
  match digits with
  | '0' :: rest => rest ≠ [] && rest.all Char.isDigit
  | _ => false

def digitValue? (c : Char) : Option Nat :=
  if c.isDigit then some (c.toNat - 48)
  else if 'a' ≤ c ∧ c ≤ 'z' then some (c.toNat - 87)
  else if 'A' ≤ c ∧ c ≤ 'Z' then some (c.toNat - 55)
  else none

/-- The value of digits in a base; there must be one. -/
def natural? (base : Nat) (cs : List Char) : Option Nat :=
  if cs = [] then none
  else cs.foldlM (fun v c => do
    let d ← digitValue? c
    if d < base then pure (v * base + d) else none) 0

def based? : List Char → Option Nat
  | '0' :: 'x' :: rest => natural? 16 rest
  | '0' :: 'o' :: rest => natural? 8 rest
  | '0' :: 'b' :: rest => natural? 2 rest
  | _ => none

def integer? (cs : List Char) : Option Int :=
  match cs with
  | '-' :: rest =>
    match based? rest with
    | some n => some (-(n : Int))
    | none => if isPadded cs then none else (natural? 10 rest).map fun n => -(n : Int)
  | _ =>
    let rest := dropPlus cs
    match based? rest with
    | some n => some n
    | none => if isPadded cs then none else (natural? 10 rest).map fun n => (n : Int)

/-- The integer that is spelled, if it has at most 128 bits. -/
def integerHead? (cs : List Char) : Option Head := do
  let n ← integer? cs
  if n = 0 ∧ cs.head? = some '-' then pure .minusZero
  else
    match Integer64.ofInt? n with
    | some i => pure (.scalar (.int i))
    | none =>
      if -(Nat.pow 2 127 : Int) ≤ n ∧ n < (Nat.pow 2 128 : Int) then pure (.wide n) else none

/-- The parts of a decimal number: digits before and behind the point, and the exponent. -/
structure Decimal where
  whole : List Char
  fraction : List Char
  exponent : Int

def exponent? : List Char → Option Int
  | '-' :: rest => (natural? 10 rest).map fun n => -(n : Int)
  | cs => (natural? 10 (dropPlus cs)).map fun n => (n : Int)

/-- The decimal number that is spelled without a sign. -/
def decimal? (cs : List Char) : Option Decimal := do
  let whole := cs.takeWhile Char.isDigit
  let rest := cs.drop whole.length
  let (fraction, rest) := match rest with
    | '.' :: rest => (rest.takeWhile Char.isDigit, rest.dropWhile Char.isDigit)
    | _ => ([], rest)
  if whole = [] ∧ fraction = [] then none
  else
    match rest with
    | [] => pure ⟨whole, fraction, 0⟩
    | e :: rest => if e = 'e' ∨ e = 'E' then pure ⟨whole, fraction, ← exponent? rest⟩ else none

def finite? (cs : List Char) : Option Double := do
  let (negative, cs) := match cs with
    | '-' :: rest => (true, rest)
    | _ => (false, dropPlus cs)
  if isSigned cs then none
  let d ← decimal? cs
  let x := Double.ofDecimal negative (decimal (d.whole ++ d.fraction))
    (d.exponent - d.fraction.length)
  if x.isFinite then pure x else none

def double? (s : String) : Option Double :=
  let cs := s.toList
  let infinity := Float.ofNat 1 / Float.ofNat 0
  let positive := String.ofList (dropPlus cs)
  if positive = ".inf" ∨ positive = ".Inf" ∨ positive = ".INF" then some (.ofFloat infinity)
  else if s = "-.inf" ∨ s = "-.Inf" ∨ s = "-.INF" then some (.ofFloat (-infinity))
  else if s = ".nan" ∨ s = ".NaN" ∨ s = ".NAN" then
    some (.ofFloat (Float.ofNat 0 / Float.ofNat 0))
  else finite? cs

def resolve (s : String) : Head :=
  let cs := s.toList
  if s = "" ∨ isNull s then .scalar .null
  else
    match bool? s, integerHead? cs with
    | some b, _ => .scalar (.bool b)
    | none, some h => h
    | none, none =>
      match if isPadded cs then none else double? s with
      | some x => .scalar (.real x)
      | none => .scalar (.text s)

end FlowArtifact.Yaml
