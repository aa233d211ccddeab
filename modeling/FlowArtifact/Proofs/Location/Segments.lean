import FlowArtifact.Proofs.Declaration.Path
import FlowArtifact.Proofs.Json.Numeral
import FlowArtifact.Proofs.Location.Grammar
import Mathlib.Data.Nat.Digits.Defs

/-!
# Indexes in locations

A part is an index if it is a text of digits and the number that it says fits a
machine word; a larger number is a name.  The number may be read with a look at the
limit at each digit, since it never becomes smaller while it is read.  Whatever is an
index is a number for the builder of locations, which puts no number behind another,
so no two indexes stand side by side.
-/

namespace FlowArtifact.Location

def numberOf (part : String) : Nat :=
  Nat.ofDigits 10 (part.toList.reverse.map fun c => c.toNat - '0'.toNat)

/-- Reads digits after a number, and gives up at the first with which it is too large. -/
def readIndex? (acc : Nat) : List Char → Option Nat
  | [] => some acc
  | c :: rest =>
    if 10 * acc + (c.toNat - '0'.toNat) < indexLimit then
      readIndex? (10 * acc + (c.toNat - '0'.toNat)) rest
    else none

def IndexesApart (l : Location) : Prop :=
  l.segments.IsChain fun s t => ¬∃ m n, s = .index m ∧ t = .index n

/-! ## Reading digits -/

theorem ofDigitChars_eq_ofDigits (digits : List Char) :
    Nat.ofDigitChars 10 digits 0 =
      Nat.ofDigits 10 (digits.reverse.map fun c => c.toNat - '0'.toNat) := by
  -- The last digit counts ones on both sides, so it is the one that is taken away.
  induction digits using List.reverseRecOn with
  | nil => rfl
  | append_singleton digits c ih =>
      rw [Nat.ofDigitChars_append, ih, Nat.ofDigitChars_cons, Nat.ofDigitChars_nil,
        List.reverse_append, List.reverse_singleton, List.singleton_append, List.map_cons,
        Nat.ofDigits_cons, Nat.add_comm]

theorem decimal_eq_numberOf (part : String) : decimal part.toList = numberOf part := by
  rw [decimal, decimalFrom_eq, ofDigitChars_eq_ofDigits, numberOf]

/-- To look at the limit with each digit is to look at it once, at the end. -/
theorem readIndex?_eq {acc : Nat} (hacc : acc < indexLimit) (digits : List Char) :
    readIndex? acc digits = if Nat.ofDigitChars 10 digits acc < indexLimit
      then some (Nat.ofDigitChars 10 digits acc) else none := by
  induction digits generalizing acc with
  | nil => rw [readIndex?, Nat.ofDigitChars_nil, if_pos hacc]
  | cons c rest ih =>
      rw [readIndex?, Nat.ofDigitChars_cons]
      by_cases hnext : 10 * acc + (c.toNat - '0'.toNat) < indexLimit
      · rw [if_pos hnext, ih hnext]
      · -- What is too large by now only grows with the digits that follow.
        have hle := Json.Numeral.le_ofDigitChars rest (10 * acc + (c.toNat - '0'.toNat))
        rw [if_neg hnext, if_neg (by omega)]

theorem readIndex?_eq_some_iff {part : String} {n : Nat} :
    readIndex? 0 part.toList = some n ↔ numberOf part = n ∧ n < indexLimit := by
  rw [readIndex?_eq (by decide), ofDigitChars_eq_ofDigits, ← numberOf,
    Option.ite_none_right_eq_some, Option.some.injEq]
  constructor
  · rintro ⟨hlimit, rfl⟩
    exact ⟨rfl, hlimit⟩
  · rintro ⟨rfl, hlimit⟩
    exact ⟨hlimit, rfl⟩

/-! ## Segments -/

namespace Segment

theorem isNumeric_of_classify {part : String} {n : Nat} (h : classify part = .index n) :
    isNumeric part = true := by
  unfold classify at h
  split_ifs at h with _ _ _ _ hnumeric
  exact hnumeric.1

theorem classify_eq_index_iff {part : String} {n : Nat} :
    classify part = .index n ↔ IsIndex part ∧ numberOf part = n ∧ n < indexLimit := by
  rw [← isNumeric_iff_isIndex]
  by_cases hnumeric : isNumeric part = true
  · rw [classify_of_isNumeric hnumeric, decimal_eq_numberOf, and_iff_right hnumeric]
    by_cases h : numberOf part < indexLimit
    · rw [if_pos h, Segment.index.injEq]
      exact ⟨fun hn => ⟨hn, hn ▸ h⟩, fun hn => hn.1⟩
    · rw [if_neg h]
      exact iff_of_false nofun fun hn => h (hn.1 ▸ hn.2)
  · exact iff_of_false (fun h => hnumeric (isNumeric_of_classify h)) fun h => hnumeric h.1

end Segment

/-! ## Built locations -/

namespace Builder

theorem Sound.isChain_apart {b : Builder} {l : Location} (hb : b.Sound) (h : b.build = .ok l) :
    l.parts.IsChain Apart := by
  have hchain := hb.apart
  rwa [((build_eq_ok_iff b l).1 h).2, List.isChain_reverse] at hchain

theorem Sound.indexesApart {b : Builder} {l : Location} (hb : b.Sound) (h : b.build = .ok l) :
    l.IndexesApart := by
  rw [IndexesApart, segments, List.isChain_map]
  apply (hb.isChain_apart h).imp
  rintro last part hapart ⟨m, n, hlast, hpart⟩
  exact hapart ⟨Segment.isNumeric_of_classify hpart, Segment.isNumeric_of_classify hlast⟩

end Builder

open Builder (empty)

/-- A part is an index exactly if it is a text of digits that says a number below the limit, which
may be looked at with each digit or at the end; a larger number is a name.  An index that is
appended is read as it was given.  In locations that are built, from nothing or from a text, and in
those that are parsed no two indexes stand side by side. -/
theorem classify_index_up_to_limit :
    (∀ (part : String) (n : Nat), Segment.classify part = .index n ↔
      IsIndex part ∧ numberOf part = n ∧ n < 2 ^ 64) ∧
    (∀ (part : String) (n : Nat), Segment.classify part = .index n ↔
      IsIndex part ∧ readIndex? 0 part.toList = some n) ∧
    (∀ part, IsIndex part → 2 ^ 64 ≤ numberOf part → Segment.classify part = .name part) ∧
    (∀ (b b' : Builder) (n : Nat), n < 2 ^ 64 → b.addIndex n = .ok b' →
      ∃ part, b'.path = part :: b.path ∧ Segment.classify part = .index n) ∧
    (∀ (calls : List Builder.Call) (b : Builder) (l : Location),
      empty.run calls = .ok b → b.build = .ok l → l.IndexesApart) ∧
    (∀ (text : String) (calls : List Builder.Call) (b b' : Builder) (l : Location),
      Builder.ofText text = .ok b → b.run calls = .ok b' → b'.build = .ok l → l.IndexesApart) ∧
    ∀ (text : String) (l : Location), parse text = .ok l → l.IndexesApart := by
  have hlimit : 2 ^ 64 = indexLimit := by decide
  rw [hlimit]
  refine ⟨fun _ _ => Segment.classify_eq_index_iff, ?_, ?_, ?_, ?_, ?_, ?_⟩
  · intro part n
    rw [Segment.classify_eq_index_iff, readIndex?_eq_some_iff]
  · intro part hpart hlarge
    rw [Segment.classify_of_isNumeric (isNumeric_iff_isIndex.2 hpart), decimal_eq_numberOf,
      if_neg (Nat.not_lt.2 hlarge)]
  · intro b b' n hn h
    obtain ⟨-, -, rfl⟩ := (Builder.addIndex_eq_ok_iff b b' n).1 h
    refine ⟨String.ofList (digitChars n), rfl, ?_⟩
    rw [Segment.classify_index, if_pos hn]
  · intro calls b l hrun
    exact (Builder.sound_run Builder.sound_empty hrun).indexesApart
  · intro text calls b b' l htext hrun
    exact (Builder.sound_run (Builder.sound_ofText htext) hrun).indexesApart
  · intro text l h
    obtain ⟨b, htext, hbuild⟩ := bind_eq_ok_iff.1 h
    exact (Builder.sound_ofText htext).indexesApart hbuild

/-- The largest index with zeros in front, the number after it, and paths that hold them. -/
theorem classify_index_up_to_limit_of_zeros :
    Segment.classify "0018446744073709551615" = .index 18446744073709551615 ∧
      Segment.classify "18446744073709551616" = .name "18446744073709551616" ∧
      (∃ part, Segment.classify part = .index 18446744073709551615) ∧
      IndexesApart ⟨"flow", ["processors", "18446744073709551615"]⟩ ∧
      IndexesApart ⟨"flow", ["processors", "007", "errorHandler", "18446744073709551616"]⟩ := by
  obtain ⟨hindex, -, hname, hadd, -, hcontinued, hparse⟩ := classify_index_up_to_limit
  have hfilled : Builder.ofText "flow/processors" = .ok ⟨some "flow", ["processors"]⟩ := by
    decide +kernel
  have hadded : Builder.addIndex ⟨some "flow", ["processors"]⟩ 18446744073709551615 =
      .ok ⟨some "flow", ["18446744073709551615", "processors"]⟩ := by decide +kernel
  have hrun : Builder.run ⟨some "flow", ["processors"]⟩ [.index 18446744073709551615] =
      .ok ⟨some "flow", ["18446744073709551615", "processors"]⟩ := by decide +kernel
  have hparsed : parse "flow/processors/007/errorHandler/18446744073709551616" =
      .ok ⟨"flow", ["processors", "007", "errorHandler", "18446744073709551616"]⟩ := by
    decide +kernel
  refine ⟨(hindex _ _).2 ⟨isNumeric_iff_isIndex.1 (by decide), by decide +kernel, by decide⟩,
    hname _ (isNumeric_iff_isIndex.1 (by decide)) (by decide +kernel), ?_,
    hcontinued _ _ _ _ _ hfilled hrun rfl, hparse _ _ hparsed⟩
  obtain ⟨part, -, hpart⟩ := hadd _ _ _ (by decide) hadded
  exact ⟨part, hpart⟩

end FlowArtifact.Location
