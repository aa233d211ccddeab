import Mathlib.Tactic.SplitIfs

/-!
# Texts and their octets

UTF-8 keeps the order of characters: the octets of the smaller of two characters
are smaller, and are so at an octet that both of them have.  The order of texts is
therefore that of their octets.
-/

namespace FlowArtifact.Text

open String (utf8EncodeChar)

def octets (s : String) : List UInt8 := s.toUTF8.data.toList

theorem octets_eq_flatMap (s : String) : octets s = s.toList.flatMap utf8EncodeChar := by
  rw [← String.ofList_toList (s := s)]
  simp only [octets, String.toUTF8, String.toByteArray_ofList, List.utf8Encode,
    List.toList_data_toByteArray, String.toList_ofList]

/-- The order of numbers is that of their digits in base 64, of which the first is not bounded. -/
theorem digits_lt_digits {m n : Nat} (h : m < n) :
    m / 262144 < n / 262144 ∨ m / 262144 = n / 262144 ∧
      (m / 4096 % 64 < n / 4096 % 64 ∨ m / 4096 % 64 = n / 4096 % 64 ∧
        (m / 64 % 64 < n / 64 % 64 ∨ m / 64 % 64 = n / 64 % 64 ∧ m % 64 < n % 64)) := by
  have hlast : m / 64 < n / 64 ∨ m / 64 = n / 64 ∧ m % 64 < n % 64 := by omega
  have hrest : m / 4096 < n / 4096 ∨ m / 4096 = n / 4096 ∧ m / 64 ≤ n / 64 := by omega
  omega

theorem toNat_val_lt (c : Char) : c.val.toNat < 0x110000 := by
  rcases c.valid with h | ⟨-, h⟩
  · exact Nat.lt_trans h (by decide)
  · exact h

theorem utf8EncodeChar_lt_of_wide {c d : Char} (hc : 0xFFFF < c.val.toNat) (h : c < d)
    (xs ys : List UInt8) : utf8EncodeChar c ++ xs < utf8EncodeChar d ++ ys := by
  have hlt : c.val.toNat < d.val.toNat := h
  have hd := toNat_val_lt d
  have hdigits := digits_lt_digits hlt
  have hwide {n : Nat} (hn : 0xFFFF < n) : ¬n ≤ 127 ∧ ¬n ≤ 2047 ∧ ¬n ≤ 65535 := by omega
  have hlead {n : Nat} (hn : n < 0x110000) :
      (UInt8.ofNat (n / 262144 % 8 + 240)).toNat = n / 262144 + 240 := by
    rw [UInt8.toNat_ofNat']
    omega
  have htail (n : Nat) : (UInt8.ofNat (n % 64 + 128)).toNat = n % 64 + 128 := by
    rw [UInt8.toNat_ofNat']
    omega
  simp only [utf8EncodeChar, hwide hc, hwide (Nat.lt_trans hc hlt), if_false, List.cons_append,
    List.nil_append, List.cons_lt_cons_iff, ← UInt8.toNat_inj, UInt8.lt_iff_toNat_lt, htail,
    hlead hd, hlead (Nat.lt_trans hlt hd)]
  omega

theorem utf8EncodeChar_lt {c d : Char} (h : c < d) (xs ys : List UInt8) :
    utf8EncodeChar c ++ xs < utf8EncodeChar d ++ ys := by
  by_cases hc : 0xFFFF < c.val.toNat
  · exact utf8EncodeChar_lt_of_wide hc h xs ys
  · have hlt : c.val.toNat < d.val.toNat := h
    have hd := toNat_val_lt d
    -- Of fewer than four octets each, and if not of equally many, the first ones differ.
    simp only [utf8EncodeChar]
    split_ifs <;>
      · simp only [List.cons_append, List.nil_append, List.cons_lt_cons_iff, ← UInt8.toNat_inj,
          UInt8.lt_iff_toNat_lt, UInt8.toNat_ofNat']
        omega

theorem flatMap_utf8EncodeChar_lt {cs ds : List Char} (h : cs < ds) :
    cs.flatMap utf8EncodeChar < ds.flatMap utf8EncodeChar := by
  induction cs generalizing ds with
  | nil =>
      cases ds with
      | nil => exact absurd h (List.not_lt_nil _)
      | cons d ds =>
          have hne : utf8EncodeChar d ≠ [] := by
            rw [← List.length_pos_iff, String.length_utf8EncodeChar]
            exact d.utf8Size_pos
          obtain ⟨x, xs, hx⟩ := List.exists_cons_of_ne_nil hne
          rw [List.flatMap_cons, hx]
          exact List.nil_lt_cons x _
  | cons c cs ih =>
      cases ds with
      | nil => exact absurd h (List.not_lt_nil _)
      | cons d ds =>
          rw [List.flatMap_cons, List.flatMap_cons]
          rcases List.cons_lt_cons_iff.1 h with hlt | ⟨rfl, hlt⟩
          · exact utf8EncodeChar_lt hlt _ _
          · exact List.append_left_lt (ih hlt)

theorem octets_lt {s t : String} (h : s < t) : octets s < octets t := by
  rw [octets_eq_flatMap, octets_eq_flatMap]
  exact flatMap_utf8EncodeChar_lt (String.lt_iff.1 h)

end FlowArtifact.Text
