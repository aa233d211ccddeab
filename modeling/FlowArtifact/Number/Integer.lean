/-!
# Integers of a document

A document holds integers that fit a signed or an unsigned 64-bit word. This module also gives the
decimal text of a natural number and its reading.
-/

namespace FlowArtifact

/-- An integer that fits a signed or an unsigned 64-bit word. -/
structure Integer64 where
  val : Int
  lower : -9223372036854775808 ≤ val
  upper : val < 18446744073709551616
deriving DecidableEq

namespace Integer64

@[ext] theorem ext {m n : Integer64} (h : m.val = n.val) : m = n := by
  cases m; cases n; cases h; rfl

def ofInt? (n : Int) : Option Integer64 :=
  if h : -9223372036854775808 ≤ n ∧ n < 18446744073709551616 then some ⟨n, h.1, h.2⟩ else none

@[simp] theorem ofInt?_val (n : Integer64) : ofInt? n.val = some n := by
  rw [ofInt?, dif_pos ⟨n.lower, n.upper⟩]

def ofWord (n : UInt32) : Integer64 where
  val := n.toNat
  lower := by omega
  upper := by have h := n.toNat_lt; omega

@[simp] theorem val_ofWord (n : UInt32) : (ofWord n).val = n.toNat := rfl

instance : Inhabited Integer64 := ⟨⟨0, by decide, by decide⟩⟩

end Integer64

/-- The value of a text of decimal digits, read from the left after `acc`. -/
def decimalFrom (acc : Nat) : List Char → Nat
  | [] => acc
  | c :: rest => decimalFrom (acc * 10 + (c.toNat - 48)) rest

def decimal (digits : List Char) : Nat := decimalFrom 0 digits

/-- The digits of a number in base ten, without leading zeros. -/
def digitChars (n : Nat) : List Char := Nat.toDigits 10 n

def intChars : Int → List Char
  | .ofNat n => digitChars n
  | .negSucc n => '-' :: digitChars (n + 1)

end FlowArtifact
