import FlowArtifact.Json.Numeral
import FlowArtifact.Source

/-!
# Lexemes of a JSON text

The text is cut into lexemes by a machine that takes one character at a time. Columns count the
bytes of the line that have been taken. A lexeme keeps three places: before it, behind its first
byte, where a fault about its kind is reported, and behind it.

Cutting stops at a character that begins no lexeme and at a lexeme that is broken off or malformed.
A number out of range and an escape of half a surrogate pair are no obstacle to cutting: they are
lexemes that have no value.
-/

namespace FlowArtifact

namespace Place

def origin : Place := { line := 1, column := 0 }

def behind (p : Place) (c : Char) : Place :=
  if c = '\n' then { line := p.line + 1, column := 0 }
  else { line := p.line, column := p.column + c.utf8Size }

/-- The place behind the first byte of a character. -/
def within (p : Place) (c : Char) : Place :=
  if c = '\n' then { line := p.line + 1, column := 0 }
  else { line := p.line, column := p.column + 1 }

end Place

namespace Json

def Flaw.at (flaw : Flaw) (p : Place) : Fault := ⟨.json flaw, some p⟩

inductive Lexeme.Kind where
  | openList
  | closeList
  | openRecord
  | closeRecord
  | comma
  | colon
  | text (value : Read String)
  /-- A number or one of the words. -/
  | scalar (value : Read Scalar)
  /-- Malformed or broken off; a malformed text is still known for a text. -/
  | broken (b : Break) (isText : Bool)
  /-- A character that begins no lexeme. -/
  | stray
  /-- The end of the text. -/
  | finish

structure Lexeme where
  start : Place
  peek : Place
  stop : Place
  kind : Lexeme.Kind

namespace Lexeme

inductive Stage where
  | minus
  | zero
  | whole
  | point
  | fraction
  | mark
  | sign
  | exponent
deriving DecidableEq

/-- A text that is being read: its characters from the last one, and the first fault that leaves it
without a value. -/
structure Draft where
  start : Place
  peek : Place
  chars : List Char := []
  fault : Option Fault := none

inductive State where
  | between
  | text (t : Draft)
  | escape (t : Draft)
  /-- Reading the four bytes of an escape; `high` is the first half of a surrogate pair. -/
  | hex (t : Draft) (left : Nat) (value : Option Nat) (high : Option Nat)
  /-- The first half of a surrogate pair was read and a backslash must follow. -/
  | half (t : Draft) (high : Nat)
  /-- After that backslash. -/
  | halfEscape (t : Draft) (high : Nat)
  | word (start peek : Place) (rest : List Char) (value : Scalar)
  | number (start peek : Place) (stage : Stage) (n : Numeral)
  | stopped

namespace Draft

def push (t : Draft) (c : Char) : Draft := { t with chars := c :: t.chars }

/-- Notes a fault; the first one stays. -/
def mar (t : Draft) (flaw : Flaw) (p : Place) : Draft :=
  { t with fault := t.fault.or (some (flaw.at p)) }

def lexeme (t : Draft) (stop : Place) : Lexeme where
  start := t.start
  peek := t.peek
  stop := stop
  kind := .text (match t.fault with
    | none => .ok (String.ofList t.chars.reverse)
    | some f => .error f)

/-- The text where cutting stops. A text that is skipped is reported at `skipped`. -/
def breakOff (t : Draft) (flaw : Flaw) (p skipped : Place) : Lexeme where
  start := t.start
  peek := t.peek
  stop := p
  kind := .broken { fault := t.fault.getD (flaw.at p), skipped := flaw.at skipped } true

end Draft

def breakOff (start peek : Place) (flaw skipped : Flaw) (p : Place) : Lexeme :=
  ⟨start, peek, p, .broken { fault := flaw.at p, skipped := skipped.at p } false⟩

def ofNumeral (start peek stop : Place) (n : Numeral) : Lexeme where
  start := start
  peek := peek
  stop := stop
  kind := .scalar (match n.value with
    | .ok s => .ok s
    | .error unread =>
      .error (Flaw.numberOutOfRange.at { stop with column := stop.column - unread }))

def hexDigit? (c : Char) : Option Nat :=
  if c.isDigit then some (c.toNat - 48)
  else if 'a' ≤ c ∧ c ≤ 'f' then some (c.toNat - 87)
  else if 'A' ≤ c ∧ c ≤ 'F' then some (c.toNat - 55)
  else none

def escaped? (c : Char) : Option Char :=
  if c = '"' then some '"'
  else if c = '\\' then some '\\'
  else if c = '/' then some '/'
  else if c = 'b' then some (Char.ofNat 8)
  else if c = 'f' then some (Char.ofNat 12)
  else if c = 'n' then some '\n'
  else if c = 'r' then some '\r'
  else if c = 't' then some '\t'
  else none

def isBlank (c : Char) : Bool := c = ' ' || c = '\n' || c = '\t' || c = '\r'

def begin (p : Place) (c : Char) : List Lexeme × State :=
  let q := p.within c
  let one (k : Kind) : List Lexeme × State := ([⟨p, q, q, k⟩], .between)
  if isBlank c then ([], .between)
  else if c = '[' then one .openList
  else if c = ']' then one .closeList
  else if c = '{' then one .openRecord
  else if c = '}' then one .closeRecord
  else if c = ',' then one .comma
  else if c = ':' then one .colon
  else if c = '"' then ([], .text { start := p, peek := q })
  else if c = '-' then ([], .number p q .minus { negative := true })
  else if c = '0' then ([], .number p q .zero { whole := ['0'] })
  else if c.isDigit then ([], .number p q .whole { whole := [c] })
  else if c = 't' then ([], .word p q ['r', 'u', 'e'] (.bool true))
  else if c = 'f' then ([], .word p q ['a', 'l', 's', 'e'] (.bool false))
  else if c = 'n' then ([], .word p q ['u', 'l', 'l'] .null)
  else ([⟨p, q, q, .stray⟩], .stopped)

def inText (p : Place) (t : Draft) (c : Char) : List Lexeme × State :=
  if c = '"' then ([t.lexeme (p.behind c)], .between)
  else if c = '\\' then ([], .escape t)
  else if c.toNat < 32 then ([t.breakOff .controlCharacter (p.within c) p], .stopped)
  else ([], .text (t.push c))

def inEscape (p : Place) (t : Draft) (c : Char) : List Lexeme × State :=
  if c = 'u' then ([], .hex t 4 (some 0) none)
  else
    match escaped? c with
    | some e => ([], .text (t.push e))
    | none => ([t.breakOff .invalidEscape (p.within c) (p.within c)], .stopped)

def endHex (p : Place) (t : Draft) (value : Nat) : Option Nat → State
  | none =>
    if 0xDC00 ≤ value ∧ value ≤ 0xDFFF then .text (t.mar .loneSurrogate p)
    else if 0xD800 ≤ value ∧ value ≤ 0xDBFF then .half t value
    else .text (t.push (Char.ofNat value))
  | some high =>
    if 0xDC00 ≤ value ∧ value ≤ 0xDFFF then
      .text (t.push (Char.ofNat ((high - 0xD800) * 1024 + (value - 0xDC00) + 0x10000)))
    else .text (t.mar .loneSurrogate p)

/-- In the digits of an escape, which takes four bytes whatever they are. -/
def inHex (p : Place) (t : Draft) (left : Nat) (value high : Option Nat) (c : Char) :
    List Lexeme × State :=
  if left < c.utf8Size then
    let behind : Place := { p with column := p.column + left }
    ([t.breakOff .invalidEscape behind behind], .stopped)
  else
    let value := do pure ((← value) * 16 + (← hexDigit? c))
    let left := left - c.utf8Size
    if left ≠ 0 then ([], .hex t left value high)
    else
      match value with
      | none => ([t.breakOff .invalidEscape (p.behind c) (p.behind c)], .stopped)
      | some v => ([], endHex (p.behind c) t v high)

def inWord (p start peek : Place) (rest : List Char) (value : Scalar) (c : Char) :
    List Lexeme × State :=
  match rest with
  | [] => begin p c
  | w :: more =>
    if c ≠ w then ([breakOff start peek .expectedIdent .expectedIdent (p.within c)], .stopped)
    else if more = [] then ([⟨start, peek, p.behind c, .scalar (.ok value)⟩], .between)
    else ([], .word start peek more value)

/-- In a number; a character that does not belong to it ends it. -/
def inNumber (p start peek : Place) (stage : Stage) (n : Numeral) (c : Char) :
    List Lexeme × State :=
  let go (stage : Stage) (n : Numeral) : List Lexeme × State :=
    ([], .number start peek stage n)
  let bad : List Lexeme × State :=
    ([breakOff start peek .invalidNumber .invalidNumber (p.within c)], .stopped)
  let done : List Lexeme × State :=
    let (ls, s) := begin p c
    (ofNumeral start peek p n :: ls, s)
  let behindWhole : List Lexeme × State :=
    if c = '.' then go .point n
    else if c = 'e' ∨ c = 'E' then go .mark { n with hasExponent := true }
    else done
  match stage with
  | .minus =>
    if c = '0' then go .zero { n with whole := ['0'] }
    else if c.isDigit then go .whole { n with whole := [c] }
    else bad
  | .zero => if c.isDigit then bad else behindWhole
  | .whole => if c.isDigit then go .whole { n with whole := n.whole ++ [c] } else behindWhole
  | .point => if c.isDigit then go .fraction { n with fraction := [c] } else bad
  | .fraction =>
    if c.isDigit then go .fraction { n with fraction := n.fraction ++ [c] }
    else if c = 'e' ∨ c = 'E' then go .mark { n with hasExponent := true }
    else done
  | .mark =>
    if c = '+' then go .sign n
    else if c = '-' then go .sign { n with exponentNegative := true }
    else if c.isDigit then go .exponent { n with exponent := [c] }
    else bad
  | .sign => if c.isDigit then go .exponent { n with exponent := [c] } else bad
  | .exponent => if c.isDigit then go .exponent { n with exponent := n.exponent ++ [c] } else done

def step (p : Place) (s : State) (c : Char) : List Lexeme × State :=
  match s with
  | .between => begin p c
  | .text t => inText p t c
  | .escape t => inEscape p t c
  | .hex t left value high => inHex p t left value high c
  | .half t high =>
    if c = '\\' then ([], .halfEscape t high)
    else inText p (t.mar .endOfHexEscape (p.within c)) c
  | .halfEscape t high =>
    if c = 'u' then ([], .hex t 4 (some 0) (some high))
    else inEscape p (t.mar .endOfHexEscape (p.within c)) c
  | .word start peek rest value => inWord p start peek rest value c
  | .number start peek stage n => inNumber p start peek stage n c
  | .stopped => ([], .stopped)

def finish (p : Place) : State → List Lexeme
  | .between => [⟨p, p, p, .finish⟩]
  | .text t | .escape t | .hex t _ _ _ | .half t _ | .halfEscape t _ =>
    [t.breakOff .endInString p p]
  | .word start peek _ _ => [breakOff start peek .endInValue .endInValue p]
  | .number start peek stage n =>
    match stage with
    | .minus | .point | .mark | .sign => [breakOff start peek .endInValue .invalidNumber p]
    | .zero | .whole | .fraction | .exponent =>
      [ofNumeral start peek p n, ⟨p, p, p, .finish⟩]
  | .stopped => []

def scan (p : Place) (s : State) : List Char → List Lexeme
  | [] => finish p s
  | c :: rest =>
    let (ls, s) := step p s c
    ls ++ scan (p.behind c) s rest

end Lexeme

def lexemes (text : String) : List Lexeme := Lexeme.scan .origin .between text.toList

end Json

end FlowArtifact
