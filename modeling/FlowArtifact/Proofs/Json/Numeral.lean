import FlowArtifact.Json.Numeral
import Mathlib.Data.List.Basic

/-!
# Written numerals

A numeral that a printer writes is well formed: it has digits before the point,
without leading zeros, and digits in every other part it names.  This module
gives the characters of a numeral, and the value of the numeral of an integer:
the digits fit the significand, so nothing is shifted or dropped.
-/

namespace FlowArtifact.Json.Numeral

def charsWith (n : Numeral) (exponent : List Char) : List Char :=
  (if n.negative then ['-'] else []) ++ n.whole ++
    (if n.fraction = [] then [] else '.' :: n.fraction) ++ exponent

/-- The characters of a numeral.  An exponent is always written with its sign. -/
def chars (n : Numeral) : List Char :=
  n.charsWith
    (if n.hasExponent then 'e' :: (if n.exponentNegative then '-' else '+') :: n.exponent else [])

def exponentSigns (negative : Bool) : List (List Char) :=
  if negative then [['-']] else [['+'], []]

/-- The characters spell the exponent: its mark is of either case, and a plus may be left out. -/
def SpellsExponent (n : Numeral) (cs : List Char) : Prop :=
  if n.hasExponent then
    ∃ mark ∈ ['e', 'E'], ∃ sign ∈ exponentSigns n.exponentNegative, cs = mark :: sign ++ n.exponent
  else cs = []

theorem exists_spellsExponent (n : Numeral) :
    ∃ exponent, n.SpellsExponent exponent ∧ n.chars = n.charsWith exponent := by
  refine ⟨_, ?_, rfl⟩
  unfold SpellsExponent
  cases n.hasExponent with
  | false => rfl
  | true => cases n.exponentNegative <;> simp [exponentSigns]

structure WellFormed (n : Numeral) : Prop where
  whole_ne : n.whole ≠ []
  whole_digits : ∀ c ∈ n.whole, c.isDigit = true
  whole_head : n.whole = ['0'] ∨ n.whole.head? ≠ some '0'
  fraction_digits : ∀ c ∈ n.fraction, c.isDigit = true
  exponent_digits : ∀ c ∈ n.exponent, c.isDigit = true
  exponent_ne : n.hasExponent = true → n.exponent ≠ []
  no_exponent : n.hasExponent = false → n.exponentNegative = false ∧ n.exponent = []

/-! ## Digits of natural numbers -/

theorem isDigit_of_mem_digitChars {n : Nat} {c : Char} (h : c ∈ digitChars n) :
    c.isDigit = true :=
  Nat.isDigit_of_mem_toDigits (by decide) (by decide) h

theorem head?_digitChars {n : Nat} (h : 0 < n) : (digitChars n).head? ≠ some '0' := by
  induction n using Nat.strongRecOn with
  | ind n ih =>
      unfold digitChars at ih ⊢
      rw [Nat.toDigits_eq_if (by decide)]
      split
      · rename_i hlt
        have hdigit : ∀ d < 10, 0 < d → d.digitChar ≠ '0' := by decide
        simpa using hdigit n hlt h
      · rename_i hge
        have hdiv : 0 < n / 10 := Nat.div_pos (by omega) (by decide)
        have hlt : n / 10 < n := Nat.div_lt_self h (by decide)
        have hne : Nat.toDigits 10 (n / 10) ≠ [] := Nat.toDigits_ne_nil
        rw [List.head?_append_of_ne_nil _ hne]
        exact ih (n / 10) hlt hdiv

theorem digitChars_eq_or_head? (n : Nat) :
    digitChars n = ['0'] ∨ (digitChars n).head? ≠ some '0' := by
  rcases Nat.eq_zero_or_pos n with rfl | hpos
  · exact .inl (Nat.toDigits_zero 10)
  · exact .inr (head?_digitChars hpos)

/-! ## The value of an integer -/

theorem le_ofDigitChars (cs : List Char) (s : Nat) : s ≤ Nat.ofDigitChars 10 cs s := by
  induction cs generalizing s with
  | nil => simp
  | cons c cs ih =>
      rw [Nat.ofDigitChars_cons]
      have hrest := ih (10 * s + (c.toNat - '0'.toNat))
      omega

/-- Digits whose value fits the significand are all taken. -/
theorem takeWhole_eq {cs : List Char} {s : Nat}
    (h : Nat.ofDigitChars 10 cs s ≤ significandLimit) :
    takeWhole s cs = ⟨Nat.ofDigitChars 10 cs s, 0⟩ := by
  induction cs generalizing s with
  | nil => simp [takeWhole]
  | cons c cs ih =>
      rw [Nat.ofDigitChars_cons] at h ⊢
      have hnext : s * 10 + (c.toNat - 48) = 10 * s + (c.toNat - '0'.toNat) := by
        rw [Nat.mul_comm]
        rfl
      have hle := le_ofDigitChars cs (10 * s + (c.toNat - '0'.toNat))
      rw [takeWhole, hnext, if_neg (by omega)]
      exact ih h

theorem takeWhole_digitChars {n : Nat} (h : n ≤ significandLimit) :
    takeWhole 0 (digitChars n) = ⟨n, 0⟩ := by
  have hvalue : Nat.ofDigitChars 10 (digitChars n) 0 = n := Nat.ofDigitChars_ten_toDigits
  rw [takeWhole_eq (by rw [hvalue]; exact h), hvalue]

def ofInt (n : Int) : Numeral := { negative := n < 0, whole := digitChars n.natAbs }

theorem chars_ofInt (n : Int) : (ofInt n).chars = intChars n := by
  cases n with
  | ofNat n => simp [chars, charsWith, ofInt, intChars]
  | negSucc n => simp [chars, charsWith, ofInt, intChars, Int.negSucc_lt_zero]

theorem wellFormed_ofInt (n : Int) : (ofInt n).WellFormed where
  whole_ne := Nat.toDigits_ne_nil
  whole_digits _ hc := isDigit_of_mem_digitChars hc
  whole_head := digitChars_eq_or_head? n.natAbs
  fraction_digits := by simp [ofInt]
  exponent_digits := by simp [ofInt]
  exponent_ne := by simp [ofInt]
  no_exponent := by simp [ofInt]

theorem value_ofInt (n : Integer64) : (ofInt n.val).value = .ok (.int n) := by
  have hlower := n.lower
  have hupper := n.upper
  have hlimit : significandLimit = 18446744073709551615 := rfl
  have htake : takeWhole 0 (ofInt n.val).whole = ⟨n.val.natAbs, 0⟩ :=
    takeWhole_digitChars (by omega)
  unfold value
  rw [htake]
  by_cases hneg : n.val < 0
  · have hval : -(n.val.natAbs : Int) = n.val := by omega
    have hne : n.val.natAbs ≠ 0 := by omega
    simp only [ofInt, hneg, decide_true, Bool.false_eq_true, if_false, if_true, ne_eq,
      not_true_eq_false, hne, hval, Integer64.ofInt?_val]
  · have hval : (n.val.natAbs : Int) = n.val := by omega
    simp only [ofInt, hneg, decide_false, Bool.false_eq_true, if_false, ne_eq, not_true_eq_false,
      hval, Integer64.ofInt?_val]

end FlowArtifact.Json.Numeral
