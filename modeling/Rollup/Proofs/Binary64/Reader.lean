import Mathlib.Data.List.TakeWhile
import Rollup.Binary64.Reader
import Rollup.Proofs.Binary64.Rounding
import Rollup.Proofs.Text.Decimal

namespace Rollup.Binary64

open Text

variable {digits : List Char}

theorem splitSign_digits (hdigits : ∀ c ∈ digits, isDigit c = true) :
    splitSign digits = (false, digits) := by
  have hplus : isDigit '+' = false := by decide
  have hminus : isDigit '-' = false := by decide
  unfold splitSign
  split
  · simp [hminus] at hdigits
  · simp [hplus] at hdigits
  · rfl

theorem lowered_digits_ne (hdigits : ∀ c ∈ digits, isDigit c = true) (word : String)
    (hword : word.toList.any (!isDigit ·) = true) :
    String.ofList (digits.map Char.toLower) ≠ word := by
  rintro rfl
  rw [map_toLower_digits hdigits, String.toList_ofList] at hword
  simp only [List.any_eq_true, Bool.not_eq_true'] at hword
  obtain ⟨c, hc, hnot⟩ := hword
  rw [hdigits c hc] at hnot
  cases hnot

theorem decimal?_digits (hne : digits ≠ []) (hdigits : ∀ c ∈ digits, isDigit c = true) :
    decimal? digits = some (valueOfDigits digits, 0) := by
  have htake : digits.takeWhile isDigit = digits := List.takeWhile_eq_self_iff.mpr hdigits
  have hdrop : digits.dropWhile isDigit = [] := List.dropWhile_eq_nil_iff.mpr hdigits
  simp [decimal?, htake, hdrop, hne]

theorem ofDecimal_zero (negative : Bool) (n : Nat) :
    ofDecimal negative n 0 =
      if n = 0 then zero negative else ofRatio negative (n * unitsPerOne) 1 := by
  simp [ofDecimal, tenTo_zero]

theorem parse?_signed {cs : List Char} {negative : Bool} (hsign : splitSign cs = (negative, digits))
    (hne : digits ≠ []) (hdigits : ∀ c ∈ digits, isDigit c = true) :
    parse? cs = some (ofDecimal negative (valueOfDigits digits) 0) := by
  have hinf := lowered_digits_ne hdigits "inf" (by decide)
  have hinfinity := lowered_digits_ne hdigits "infinity" (by decide)
  have hnan := lowered_digits_ne hdigits "nan" (by decide)
  simp [parse?, hsign, hinf, hinfinity, hnan, decimal?_digits hne hdigits]

/-- An integer is read as the number that it is rounded to. Only a minus before a zero is kept. -/
theorem parse?_of_writes {cs : List Char} {n : Int} (h : Writes cs n) :
    ∃ x, parse? cs = some x ∧ (x = ofInt n ∨ n = 0 ∧ x = zero true) := by
  have hplus (m : Nat) : ofDecimal false m 0 = ofInt m := by
    rw [ofDecimal_zero]
    split
    · next hm =>
      rw [hm]
      decide +kernel
    · have hnegative : decide ((m : Int) < 0) = false := decide_eq_false (by omega)
      rw [ofInt, Int.natAbs_natCast, hnegative]
  cases h with
  | unsigned hne hdigits =>
    exact ⟨_, parse?_signed (splitSign_digits hdigits) hne hdigits, .inl (hplus _)⟩
  | plus hne hdigits => exact ⟨_, parse?_signed rfl hne hdigits, .inl (hplus _)⟩
  | @minus digits hne hdigits =>
    refine ⟨_, parse?_signed rfl hne hdigits, ?_⟩
    rw [ofDecimal_zero]
    split
    · next hzero => exact .inr ⟨by rw [hzero]; rfl, rfl⟩
    · have hnegative : decide (-(valueOfDigits digits : Int) < 0) = true :=
        decide_eq_true (by omega)
      rw [ofInt, Int.natAbs_neg, Int.natAbs_natCast, hnegative]
      exact .inl rfl

theorem atMost_of_reads {x : Binary64} {n : Int} (h : x = ofInt n ∨ n = 0 ∧ x = zero true)
    (y : Binary64) : x.atMost y = (ofInt n).atMost y ∧ y.atMost x = y.atMost (ofInt n) := by
  obtain rfl | ⟨rfl, rfl⟩ := h
  · exact ⟨rfl, rfl⟩
  · have hnan : (ofInt 0).isNaN = (zero true).isNaN := by decide +kernel
    have hunits : (ofInt 0).signedUnits = (zero true).signedUnits := by decide +kernel
    rw [atMost, atMost, atMost, atMost, hnan, hunits]
    exact ⟨rfl, rfl⟩

end Rollup.Binary64
