import FlowArtifact.Doc
import FlowArtifact.Json.Flaw

/-!
# Numerals

A numeral is the parts of a number as it is written. An integer that fits stays an integer; every
other number becomes a double. The significand of a double is collected in a 64-bit word: digits
that do not fit any more only shift it, and it is then scaled by one power of ten.
-/

namespace FlowArtifact.Json

/-- A written number. The digit lists are in order; a missing part has no digits. -/
structure Numeral where
  negative : Bool := false
  whole : List Char := []
  fraction : List Char := []
  hasExponent : Bool := false
  exponentNegative : Bool := false
  exponent : List Char := []
deriving Inhabited

namespace Numeral

def significandLimit : Nat := 18446744073709551615

/-- The largest exponent that is counted. -/
def exponentLimit : Nat := 2147483647

structure Scaled where
  significand : Nat
  exponent : Int

/-- Takes the digits before the point: once a digit does not fit, it and all behind it shift. -/
def takeWhole (s : Nat) : List Char → Scaled
  | [] => ⟨s, 0⟩
  | c :: rest =>
    let next := s * 10 + (c.toNat - 48)
    if significandLimit < next then ⟨s, rest.length + 1⟩ else takeWhole next rest

/-- Takes the digits behind the point: once a digit does not fit, it and all behind it are
dropped. -/
def takeFraction (s : Scaled) : List Char → Scaled
  | [] => s
  | c :: rest =>
    let next := s.significand * 10 + (c.toNat - 48)
    if significandLimit < next then s else takeFraction ⟨next, s.exponent - 1⟩ rest

/-- The exponent, or the number of its digits that are read until it is too large. -/
def takeExponent (e read : Nat) : List Char → Except Nat Nat
  | [] => .ok e
  | c :: rest =>
    let next := e * 10 + (c.toNat - 48)
    if exponentLimit < next then .error (read + 1) else takeExponent next (read + 1) rest

/-- Scales by powers of ten that a double holds; `none` if the result is too large. -/
def scale (x : Float) (exponent : Int) : Nat → Option Float
  | 0 => some x
  | fuel + 1 =>
    if exponent.natAbs ≤ 308 then
      let power := Float.ofScientific 1 false exponent.natAbs
      if 0 ≤ exponent then
        let y := x * power
        if y.isInf then none else some y
      else some (x / power)
    else if x == 0 then some x
    else if 0 ≤ exponent then none
    else scale (x / Float.ofScientific 1 false 308) (exponent + 308) fuel

/-- A number is out of range after all its characters but the given ones at its end. -/
abbrev Valued := Except Nat Scalar

def real (negative : Bool) (s : Scaled) : Valued :=
  match scale (Float.ofNat s.significand) s.exponent 8 with
  | none => .error 0
  | some x => .ok (.real (.ofFloat (if negative then -x else x)))

def zero (negative : Bool) : Scalar :=
  .real (.ofFloat (if negative then -(Float.ofNat 0) else Float.ofNat 0))

def value (n : Numeral) : Valued :=
  let w := takeWhole 0 n.whole
  if n.hasExponent then
    let s := takeFraction w n.fraction
    match takeExponent 0 0 n.exponent with
    | .error read =>
      if s.significand ≠ 0 ∧ !n.exponentNegative then .error (n.exponent.length - read)
      else .ok (zero n.negative)
    | .ok e =>
      real n.negative ⟨s.significand, s.exponent + if n.exponentNegative then -(e : Int) else e⟩
  else if n.fraction ≠ [] then real n.negative (takeFraction w n.fraction)
  else if w.exponent ≠ 0 then real n.negative w
  else if n.negative then
    if w.significand = 0 then .ok (zero true)
    else
      match Integer64.ofInt? (-(w.significand : Int)) with
      | some i => .ok (.int i)
      | none => real true w
  else
    match Integer64.ofInt? w.significand with
    | some i => .ok (.int i)
    | none => real false w

end Numeral

end FlowArtifact.Json
