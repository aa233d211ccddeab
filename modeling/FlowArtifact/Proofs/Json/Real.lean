import FlowArtifact.Json.Reader
import FlowArtifact.Proofs.Json.Numeral

/-!
# The text of a double is a numeral

Digits are laid out positionally or with an exponent, and either way the result
is a well-formed numeral.  A zero in front of the point could only come from a
significand that is zero; the digits chosen for a double that is not zero lie in
its interval, which is above zero, so their significand is not.
-/

namespace FlowArtifact.Double

open Json (Numeral)

namespace Digits

def numeral (negative : Bool) (d : Digits) : Numeral :=
  let cs := digitChars d.significand
  let point : Int := cs.length + d.exponent
  if usual point then
    if 0 ≤ d.exponent then
      { negative, whole := cs ++ List.replicate d.exponent.natAbs '0', fraction := ['0'] }
    else if 0 < point then
      { negative, whole := cs.take point.natAbs, fraction := cs.drop point.natAbs }
    else { negative, whole := ['0'], fraction := List.replicate point.natAbs '0' ++ cs }
  else
    { negative, whole := cs.take 1, fraction := cs.drop 1, hasExponent := true,
      exponentNegative := point - 1 < 0, exponent := digitChars (point - 1).natAbs }

theorem chars_numeral (negative : Bool) (d : Digits) :
    (d.numeral negative).chars =
      (if negative then ['-'] else []) ++ (d.text Json.layout).toList := by
  have hne : digitChars d.significand ≠ [] := Nat.toDigits_ne_nil
  have hcs : Nat.toDigits 10 d.significand = digitChars d.significand := rfl
  have hlayout : Json.layout.positional = usual := rfl
  unfold numeral text
  simp only [hcs, hlayout]
  by_cases hu : usual ((digitChars d.significand).length + d.exponent) = true
  · by_cases he : 0 ≤ d.exponent
    · simp [hu, he, Numeral.chars, Numeral.charsWith]
    · by_cases hp : 0 < ((digitChars d.significand).length : Int) + d.exponent
      · have hdrop : (digitChars d.significand).drop
            ((digitChars d.significand).length + d.exponent : Int).natAbs ≠ [] := by
          rw [Ne, List.drop_eq_nil_iff]
          omega
        simp [hu, he, hp, hdrop, Numeral.chars, Numeral.charsWith]
      · have hfraction : List.replicate
            ((digitChars d.significand).length + d.exponent : Int).natAbs '0' ++
              digitChars d.significand ≠ [] := by
          simp [hne]
        simp only [hu, he, hp, if_true, if_false, Numeral.chars,
          Numeral.charsWith, hfraction]
        simp
  · obtain ⟨c, rest, hcons⟩ := List.exists_cons_of_ne_nil hne
    rw [hcons] at hu ⊢
    simp only [hu, if_false, Numeral.chars, Numeral.charsWith, Bool.false_eq_true, if_true,
      List.take_succ_cons, List.take_zero, List.drop_succ_cons, List.drop_zero, digitChars,
      Json.layout]
    generalize ((c :: rest).length : Int) + d.exponent - 1 = power
    have hsign : (if 0 ≤ power then "+" else "-").toList = [if power < 0 then '-' else '+'] := by
      by_cases hp : power < 0
      · rw [if_neg (by omega), if_pos hp]
        rfl
      · rw [if_pos (by omega), if_neg hp]
        rfl
    cases rest <;> simp [hsign]

theorem isDigit_of_mem_zeros {n : Nat} {c : Char} (h : c ∈ List.replicate n '0') :
    c.isDigit = true := by
  rw [(List.mem_replicate.1 h).2]
  rfl

theorem wellFormed_numeral (negative : Bool) {d : Digits} (hd : d.significand ≠ 0) :
    (d.numeral negative).WellFormed := by
  have hne : digitChars d.significand ≠ [] := Nat.toDigits_ne_nil
  have hdigits : ∀ c ∈ digitChars d.significand, c.isDigit = true :=
    fun c hc => Numeral.isDigit_of_mem_digitChars hc
  have hhead := Numeral.head?_digitChars (Nat.pos_of_ne_zero hd)
  have htake (n : Nat) : ∀ c ∈ (digitChars d.significand).take n, c.isDigit = true :=
    fun c hc => hdigits c (List.mem_of_mem_take hc)
  have hdrop (n : Nat) : ∀ c ∈ (digitChars d.significand).drop n, c.isDigit = true :=
    fun c hc => hdigits c (List.mem_of_mem_drop hc)
  have htakeNe (n : Nat) (hn : n ≠ 0) : (digitChars d.significand).take n ≠ [] := by
    simp [hn, hne]
  have htakeHead (n : Nat) (hn : n ≠ 0) :
      ((digitChars d.significand).take n).head? ≠ some '0' := by
    rw [List.head?_take, if_neg hn]
    exact hhead
  unfold numeral
  dsimp only
  split
  · split
    · refine ⟨by simp [hne], ?_, .inr ?_, by simp, by simp, by simp, by simp⟩
      · intro c hc
        rcases List.mem_append.1 hc with hc | hc
        · exact hdigits c hc
        · exact isDigit_of_mem_zeros hc
      · rw [List.head?_append_of_ne_nil _ hne]
        exact hhead
    · split
      · have hpoint : ((digitChars d.significand).length + d.exponent : Int).natAbs ≠ 0 := by
          omega
        exact ⟨htakeNe _ hpoint, htake _, .inr (htakeHead _ hpoint), hdrop _, by simp, by simp,
          by simp⟩
      · refine ⟨by simp, by simp, .inl rfl, ?_, by simp, by simp, by simp⟩
        intro c hc
        rcases List.mem_append.1 hc with hc | hc
        · exact isDigit_of_mem_zeros hc
        · exact hdigits c hc
  · exact ⟨htakeNe 1 (by decide), htake 1, .inr (htakeHead 1 (by decide)), hdrop 1,
      fun c hc => Numeral.isDigit_of_mem_digitChars hc, fun _ => Nat.toDigits_ne_nil, by simp⟩

theorem strip_go_significand_ne_zero (fuel : Nat) {s : Nat} (k : Int) (hs : s ≠ 0) :
    (strip.go s k fuel).significand ≠ 0 := by
  induction fuel generalizing s k with
  | zero => exact hs
  | succ fuel ih =>
      unfold strip.go
      split
      · rename_i hzero
        exact ih _ (by omega)
      · exact hs

end Digits

/-! ## Digits of a double -/

theorem Ratio.num_ofDecimal_zero (k : Int) : (Ratio.ofDecimal 0 k).num = 0 := by
  unfold Ratio.ofDecimal
  split <;> simp

theorem Ratio.den_ofDecimal_pos (m : Nat) (k : Int) : 0 < (Ratio.ofDecimal m k).den := by
  unfold Ratio.ofDecimal
  split
  · exact Nat.pow_pos (by decide)
  · exact Nat.one_pos

theorem Ratio.num_ofBinary_pos {m : Nat} (hm : 0 < m) (q : Int) :
    0 < (Ratio.ofBinary m q).num := by
  unfold Ratio.ofBinary
  split
  · exact hm
  · exact Nat.mul_pos hm (Nat.pow_pos (by decide))

theorem Interval.contains_zero {i : Interval} (hi : 0 < i.low.num) (k : Int) :
    i.contains (.ofDecimal 0 k) = false := by
  have hpos : 0 < i.low.num * (Ratio.ofDecimal 0 k).den :=
    Nat.mul_pos hi (Ratio.den_ofDecimal_pos 0 k)
  simp [contains, Ratio.lt, Ratio.num_ofDecimal_zero, hpos]

theorem interval_low_pos {m : Nat} (hm : m ≠ 0) (q : Int) : 0 < (interval m q).low.num := by
  unfold interval
  simp only
  split
  · exact Ratio.num_ofBinary_pos (by omega) _
  · exact Ratio.num_ofBinary_pos (by omega) _

theorem onGrid_significand_ne_zero {i : Interval} (hi : 0 < i.low.num) {r : Ratio} {k : Int}
    {d : Digits} (h : onGrid i r k = some d) : d.significand ≠ 0 := by
  unfold onGrid at h
  dsimp only at h
  generalize hbelow : (if k < 0 then r.num * Nat.pow 10 k.natAbs / r.den
    else r.num / (r.den * Nat.pow 10 k.natAbs)) = below at h
  have hne : i.contains (.ofDecimal below k) = true → below ≠ 0 := by
    rintro hin rfl
    rw [Interval.contains_zero hi] at hin
    cases hin
  split at h
  · rename_i hlower _
    cases h
    exact hne hlower
  · cases h
    simp
  · cases h
  · rename_i hlower _
    have hnonzero := hne hlower
    split at h
    · cases h
      exact hnonzero
    · split at h
      · cases h
        simp
      · cases h
        simp only
        split <;> omega

theorem shortest_significand_ne_zero {m : Nat} (hm : m ≠ 0) (q : Int) :
    (shortest m q).significand ≠ 0 := by
  unfold shortest
  simp only
  split
  · rename_i d hfound
    obtain ⟨n, _, hgrid⟩ := List.exists_of_findSome?_eq_some hfound
    exact onGrid_significand_ne_zero (interval_low_pos hm q) hgrid
  · exact hm

def numeral (x : Double) : Numeral :=
  if x.magnitude.1 = 0 then { negative := x.isNegative, whole := ['0'], fraction := ['0'] }
  else (shortest x.magnitude.1 x.magnitude.2).strip.numeral x.isNegative

theorem numeral_chars (x : Double) : x.numeral.chars = (x.text Json.layout).toList := by
  unfold numeral text
  by_cases hm : x.magnitude.1 = 0
  · cases x.isNegative <;> simp [hm, Numeral.chars, Numeral.charsWith]
  · rw [if_neg hm, Digits.chars_numeral]
    cases x.isNegative <;> simp [hm]

theorem numeral_wellFormed (x : Double) : x.numeral.WellFormed := by
  unfold numeral
  split
  · exact ⟨by simp, by simp, .inl rfl, by simp, by simp, by simp, by simp⟩
  · rename_i hm
    exact Digits.wellFormed_numeral _
      (Digits.strip_go_significand_ne_zero _ _ (shortest_significand_ne_zero hm _))

/-- What is read of a double that was written, if it is in range.  A double that is not finite is
written as null. -/
def restored? (x : Double) : Option Scalar :=
  if x.isFinite then x.numeral.value.toOption else some .null

end FlowArtifact.Double
