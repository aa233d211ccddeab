/-!
# Doubles

A `Double` is a binary floating-point number of 64 bits, given by its bits. Its text has two
stages: the fewest decimal digits that read back to it, selected by exact arithmetic, and the
layout of these digits, which is a record of decisions that each text format fixes for itself.
-/

namespace FlowArtifact

/-- A binary floating-point number of 64 bits. -/
structure Double where
  bits : UInt64
deriving DecidableEq, Inhabited

namespace Double

def ofFloat (x : Float) : Double := ⟨x.toBits⟩

def toFloat (x : Double) : Float := Float.ofBits x.bits

/-- The biased exponent. -/
def exponentField (x : Double) : Nat := (x.bits.toNat / Nat.pow 2 52) % Nat.pow 2 11

def fraction (x : Double) : Nat := x.bits.toNat % Nat.pow 2 52

def isNegative (x : Double) : Bool := x.bits.toNat / Nat.pow 2 63 = 1

def isFinite (x : Double) : Bool := x.exponentField ≠ 2047

def isNaN (x : Double) : Bool := x.exponentField = 2047 && x.fraction ≠ 0

/-- Equal as numbers: the two zeros are, a NaN is equal to nothing. -/
def same (x y : Double) : Bool := x.toFloat == y.toFloat

/-- The absolute value of a finite double is `m * 2 ^ q`; this is `(m, q)`. -/
def magnitude (x : Double) : Nat × Int :=
  if x.exponentField = 0 then (x.fraction, -1074)
  else (Nat.pow 2 52 + x.fraction, x.exponentField - 1075)

/-- Decimal digits and the power of ten they are multiplied by. -/
structure Digits where
  significand : Nat
  exponent : Int

structure Ratio where
  num : Nat
  den : Nat

def Ratio.ofBinary (m : Nat) (q : Int) : Ratio :=
  if q < 0 then ⟨m, Nat.pow 2 q.natAbs⟩ else ⟨m * Nat.pow 2 q.natAbs, 1⟩

def Ratio.ofDecimal (m : Nat) (k : Int) : Ratio :=
  if k < 0 then ⟨m, Nat.pow 10 k.natAbs⟩ else ⟨m * Nat.pow 10 k.natAbs, 1⟩

def Ratio.lt (a b : Ratio) : Bool := a.num * b.den < b.num * a.den

def Ratio.dist (a b : Ratio) : Ratio :=
  ⟨(a.num * b.den - b.num * a.den) + (b.num * a.den - a.num * b.den), a.den * b.den⟩

/-- The exponent `k` with `10 ^ (k - 1) ≤ r < 10 ^ k`. -/
def Ratio.decimalExponent (r : Ratio) : Int :=
  if r.den ≤ r.num then (Nat.toDigits 10 (r.num / r.den)).length
  else
    match (List.range 400).find? fun j => r.den ≤ r.num * Nat.pow 10 j with
    | some j => 1 - (j : Int)
    | none => -400

/-- The numbers that read back to a double: those between two ends, the ends included for an even
significand. -/
structure Interval where
  low : Ratio
  high : Ratio
  closed : Bool

def Interval.contains (i : Interval) (r : Ratio) : Bool :=
  if i.closed then !r.lt i.low && !i.high.lt r else i.low.lt r && r.lt i.high

/-- The interval of the numbers that round to `m * 2 ^ q`. Below a power of two the neighbours are
twice as dense. -/
def interval (m : Nat) (q : Int) : Interval where
  low :=
    if m = Nat.pow 2 52 ∧ -1074 < q then .ofBinary (4 * m - 1) (q - 2)
    else .ofBinary (2 * m - 1) (q - 1)
  high := .ofBinary (2 * m + 1) (q - 1)
  closed := m % 2 = 0

/-- The best number with steps of `10 ^ k` that lies in the interval, if one does: the nearer of the
two neighbours of `r`, the even one on a tie. -/
def onGrid (i : Interval) (r : Ratio) (k : Int) : Option Digits :=
  let unit := Nat.pow 10 k.natAbs
  let below := if k < 0 then r.num * unit / r.den else r.num / (r.den * unit)
  let lower := Ratio.ofDecimal below k
  let upper := Ratio.ofDecimal (below + 1) k
  match i.contains lower, i.contains upper with
  | true, false => some ⟨below, k⟩
  | false, true => some ⟨below + 1, k⟩
  | false, false => none
  | true, true =>
    let toLower := r.dist lower
    let toUpper := r.dist upper
    if toLower.lt toUpper then some ⟨below, k⟩
    else if toUpper.lt toLower then some ⟨below + 1, k⟩
    else some ⟨if below % 2 = 0 then below else below + 1, k⟩

/-- The fewest digits that read back to `m * 2 ^ q`. -/
def shortest (m : Nat) (q : Int) : Digits :=
  let r := Ratio.ofBinary m q
  let top := r.decimalExponent
  let i := interval m q
  match (List.range 17).findSome? fun n => onGrid i r (top - (n + 1 : Nat)) with
  | some d => d
  | none => ⟨m, q⟩

def Digits.strip (d : Digits) : Digits :=
  go d.significand d.exponent 20
where
  go (s : Nat) (k : Int) : Nat → Digits
    | 0 => ⟨s, k⟩
    | fuel + 1 => if s ≠ 0 ∧ s % 10 = 0 then go (s / 10) (k + 1) fuel else ⟨s, k⟩

structure Layout where
  /-- The decimal exponents that are written positionally. -/
  positional : Int → Bool
  /-- What stands before an exponent that is not negative. -/
  plus : String

/-- Lays out digits, always with a point or an exponent. -/
def Digits.text (layout : Layout) (d : Digits) : String :=
  let cs := Nat.toDigits 10 d.significand
  let point : Int := cs.length + d.exponent
  if layout.positional point then
    if 0 ≤ d.exponent then
      String.ofList (cs ++ List.replicate d.exponent.natAbs '0') ++ ".0"
    else if 0 < point then
      String.ofList (cs.take point.natAbs ++ '.' :: cs.drop point.natAbs)
    else
      "0." ++ String.ofList (List.replicate point.natAbs '0' ++ cs)
  else
    let e := point - 1
    let mantissa :=
      match cs with
      | [c] => String.ofList [c]
      | c :: rest => String.ofList (c :: '.' :: rest)
      | [] => ""
    let sign := if 0 ≤ e then layout.plus else "-"
    mantissa ++ "e" ++ sign ++ String.ofList (Nat.toDigits 10 e.natAbs)

def text (layout : Layout) (x : Double) : String :=
  let (m, q) := x.magnitude
  let sign := if x.isNegative then "-" else ""
  if m = 0 then sign ++ "0.0" else sign ++ (shortest m q).strip.text layout

/-- Positional up to sixteen digits before the point and four zeros behind it. -/
def usual (point : Int) : Bool := -5 < point && point ≤ 16

/-- The double nearest to `m * 10 ^ k`. -/
def ofDecimal (negative : Bool) (m : Nat) (k : Int) : Double :=
  let top : Int := (Nat.toDigits 10 m).length + k
  let x :=
    if m = 0 ∨ top < -400 then Float.ofNat 0
    else if 400 < top then Float.ofNat 1 / Float.ofNat 0
    else if k < 0 then Float.ofScientific m true k.natAbs
    else Float.ofScientific m false k.natAbs
  ofFloat (if negative then -x else x)

end Double

end FlowArtifact
