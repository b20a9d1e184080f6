import Rollup.Binary64.Rounding
import Mathlib.Algebra.Divisibility.Basic
import Mathlib.Algebra.Ring.Nat
import Mathlib.Order.MinMax

namespace Rollup.Binary64

theorem orderSize_eq : orderSize = 2 ^ 52 := by decide

theorem nearestEven_eq (num den : Nat) :
    nearestEven num den =
      if 2 * (num % den) < den then num / den
      else if den < 2 * (num % den) then num / den + 1
      else num / den + num / den % 2 := rfl

theorem nearestEven_bounds (num den : Nat) :
    num / den ≤ nearestEven num den ∧ nearestEven num den ≤ num / den + 1 := by
  rw [nearestEven_eq]
  split
  · omega
  · split <;> omega

theorem nearestEven_mono {num num' : Nat} (den : Nat) (h : num ≤ num') :
    nearestEven num den ≤ nearestEven num' den := by
  have hq : num / den ≤ num' / den := Nat.div_le_div_right h
  obtain hlt | heq := Nat.lt_or_eq_of_le hq
  · have hup := (nearestEven_bounds num den).2
    have hlow := (nearestEven_bounds num' den).1
    omega
  · have hr : num % den ≤ num' % den := by
      have h1 := Nat.div_add_mod num den
      have h2 := Nat.div_add_mod num' den
      rw [heq] at h1
      omega
    rw [nearestEven_eq, nearestEven_eq, heq]
    grind

def orderOf (num den : Nat) : Nat := (num / den).log2 - 52

theorem rankOfRatio_eq (num den : Nat) :
    rankOfRatio num den =
      min (orderOf num den * 2 ^ 52 + nearestEven num (den * 2 ^ orderOf num den))
        infinityRank := by
  simp only [rankOfRatio, orderOf, orderSize_eq, Nat.shiftLeft_eq]

theorem orderOf_mono {num num' : Nat} (den : Nat) (h : num ≤ num') :
    orderOf num den ≤ orderOf num' den := by
  have hq : num / den ≤ num' / den := Nat.div_le_div_right h
  have hlog : (num / den).log2 ≤ (num' / den).log2 := by
    obtain hz | hp := Nat.eq_zero_or_pos (num / den)
    · rw [hz, Nat.log2_zero]
      exact Nat.zero_le _
    · exact (Nat.le_log2 (by omega)).mpr ((Nat.log2_self_le (by omega)).trans hq)
  unfold orderOf
  omega

theorem quotient_lt (num den : Nat) : num / (den * 2 ^ orderOf num den) < 2 ^ 53 := by
  rw [← Nat.div_div_eq_div_mul, Nat.div_lt_iff_lt_mul (Nat.two_pow_pos _), ← Nat.pow_add]
  calc num / den < 2 ^ ((num / den).log2 + 1) := Nat.lt_log2_self
    _ ≤ 2 ^ (53 + orderOf num den) := Nat.pow_le_pow_right (by omega) (by unfold orderOf; omega)

theorem le_quotient {num den : Nat} (h : 0 < orderOf num den) :
    2 ^ 52 ≤ num / (den * 2 ^ orderOf num den) := by
  have hlog : (num / den).log2 = 52 + orderOf num den := by unfold orderOf at *; omega
  have hne : num / den ≠ 0 := by
    intro hz
    rw [hz, Nat.log2_zero] at hlog
    omega
  rw [← Nat.div_div_eq_div_mul, Nat.le_div_iff_mul_le (Nat.two_pow_pos _), ← Nat.pow_add, ← hlog]
  exact Nat.log2_self_le hne

theorem rankOfRatio_mono {num num' : Nat} (den : Nat) (h : num ≤ num') :
    rankOfRatio num den ≤ rankOfRatio num' den := by
  rw [rankOfRatio_eq, rankOfRatio_eq]
  apply min_le_min_right _
  obtain hlt | heq := Nat.lt_or_eq_of_le (orderOf_mono den h)
  · -- The lower order ends where the next one begins.
    have hup : nearestEven num (den * 2 ^ orderOf num den) ≤ 2 ^ 53 := by
      have h1 := (nearestEven_bounds num (den * 2 ^ orderOf num den)).2
      have h2 := quotient_lt num den
      omega
    have hlow : 2 ^ 52 ≤ nearestEven num' (den * 2 ^ orderOf num' den) :=
      (le_quotient (by omega)).trans (nearestEven_bounds _ _).1
    omega
  · rw [heq]
    exact Nat.add_le_add_left (nearestEven_mono _ h) _

theorem nearestEven_of_dvd {num den : Nat} (hd : 0 < den) (h : den ∣ num) :
    nearestEven num den = num / den := by
  rw [nearestEven_eq, Nat.mod_eq_zero_of_dvd h, if_pos (by omega)]

theorem units_eq (rank : Nat) :
    units rank =
      if rank < 2 ^ 52 then rank else (2 ^ 52 + rank % 2 ^ 52) * 2 ^ (rank / 2 ^ 52 - 1) := by
  simp only [units, orderSize_eq, Nat.shiftLeft_eq]

/-- A magnitude that has no more bits than a number holds is rounded to itself. -/
theorem units_rankOfRatio_of_dvd {num : Nat} (h : 2 ^ orderOf num 1 ∣ num)
    (hfin : rankOfRatio num 1 < infinityRank) : units (rankOfRatio num 1) = num := by
  have hq := quotient_lt num 1
  have hrank : rankOfRatio num 1 = orderOf num 1 * 2 ^ 52 + num / 2 ^ orderOf num 1 := by
    have hr := rankOfRatio_eq num 1
    rw [Nat.one_mul, nearestEven_of_dvd (Nat.two_pow_pos _) h] at hr
    omega
  rw [Nat.one_mul] at hq
  rw [hrank, units_eq]
  by_cases ho : orderOf num 1 = 0
  · rw [ho, Nat.pow_zero, Nat.div_one] at hq ⊢
    split
    · omega
    · have hdiv : (0 * 2 ^ 52 + num) / 2 ^ 52 - 1 = 0 := by omega
      rw [hdiv]
      omega
  · have hlow := @le_quotient num 1 (by omega)
    rw [Nat.one_mul] at hlow
    have hdiv : (orderOf num 1 * 2 ^ 52 + num / 2 ^ orderOf num 1) / 2 ^ 52 - 1 =
        orderOf num 1 := by
      omega
    have hmod : 2 ^ 52 + (orderOf num 1 * 2 ^ 52 + num / 2 ^ orderOf num 1) % 2 ^ 52 =
        num / 2 ^ orderOf num 1 := by
      omega
    rw [if_neg (by omega), hdiv, hmod]
    exact Nat.div_mul_cancel h

theorem unitsPerOne_eq : unitsPerOne = 2 ^ 1074 := by decide +kernel

theorem orderOf_mul_two_pow {n : Nat} (k : Nat) (h : n < 2 ^ 53) : orderOf (n * 2 ^ k) 1 ≤ k := by
  unfold orderOf
  rw [Nat.div_one]
  obtain hz | hp := Nat.eq_zero_or_pos n
  · rw [hz, Nat.zero_mul, Nat.log2_zero]
    omega
  · have hlog : (n * 2 ^ k).log2 < 53 + k := by
      rw [Nat.log2_lt (Nat.mul_pos hp (Nat.two_pow_pos k)).ne', Nat.pow_add]
      exact Nat.mul_lt_mul_of_pos_right h (Nat.two_pow_pos k)
    omega

theorem units_ofInt {n : Int} (h : n.natAbs ≤ 2 ^ 53) :
    units (ofInt n).rank = n.natAbs * unitsPerOne := by
  change units (rankOfRatio (n.natAbs * unitsPerOne) 1) = _
  have hfin : rankOfRatio (n.natAbs * unitsPerOne) 1 < infinityRank := by
    apply (rankOfRatio_mono 1 (Nat.mul_le_mul_right _ h)).trans_lt
    decide +kernel
  refine units_rankOfRatio_of_dvd ?_ hfin
  obtain hlt | heq := Nat.lt_or_eq_of_le h
  · rw [unitsPerOne_eq]
    exact dvd_mul_of_dvd_right (pow_dvd_pow 2 (orderOf_mul_two_pow 1074 hlt)) _
  · rw [heq]
    decide +kernel

theorem ofInt_injective {m n : Int} (hm : m.natAbs ≤ 2 ^ 53) (hn : n.natAbs ≤ 2 ^ 53)
    (h : ofInt m = ofInt n) : m = n := by
  have hsign : decide (m < 0) = decide (n < 0) := congrArg negative h
  have hunits : m.natAbs * unitsPerOne = n.natAbs * unitsPerOne := by
    rw [← units_ofInt hm, ← units_ofInt hn, h]
  have habs : m.natAbs = n.natAbs := Nat.mul_right_cancel (by decide) hunits
  rw [decide_eq_decide] at hsign
  omega

theorem place_ofInt_mono {m n : Int} (h : m ≤ n) : (ofInt m).place ≤ (ofInt n).place := by
  have hr {a b : Nat} (hab : a ≤ b) :
      rankOfRatio (a * unitsPerOne) 1 ≤ rankOfRatio (b * unitsPerOne) 1 :=
    rankOfRatio_mono 1 (Nat.mul_le_mul_right _ hab)
  unfold place ofInt ofRatio
  by_cases hm : m < 0 <;> by_cases hn : n < 0
  · have := hr (show n.natAbs ≤ m.natAbs by omega)
    simp only [hm, hn, decide_true, if_true]
    omega
  · simp only [hm, hn, decide_true, decide_false, if_true, Bool.false_eq_true, if_false]
    omega
  · omega
  · have := hr (show m.natAbs ≤ n.natAbs by omega)
    simp only [hm, hn, decide_false, Bool.false_eq_true, if_false]
    omega

theorem place_injective {x y : Binary64} (h : x.place = y.place) : x = y := by
  obtain ⟨xs, xr, hx⟩ := x
  obtain ⟨ys, yr, hy⟩ := y
  unfold place at h
  cases xs <;> cases ys <;> simp only [Bool.false_eq_true, if_true, if_false] at h
  · have hr : xr = yr := by omega
    subst hr
    rfl
  · omega
  · omega
  · have hr : xr = yr := by omega
    subst hr
    rfl

theorem total_swap (x y : Binary64) : x.total y = (y.total x).swap :=
  (Int.compare_swap ..).symm

theorem total_ne_gt {x y : Binary64} : x.total y ≠ .gt ↔ x.place ≤ y.place :=
  Int.compare_ne_gt

theorem total_ne_lt {x y : Binary64} : x.total y ≠ .lt ↔ y.place ≤ x.place :=
  Int.compare_ne_lt

theorem total_eq_iff {x y : Binary64} : x.total y = .eq ↔ x = y := by
  rw [total, Int.compare_eq_eq]
  exact ⟨place_injective, congrArg place⟩

end Rollup.Binary64
