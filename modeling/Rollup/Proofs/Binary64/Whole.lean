import Mathlib.Order.Monotone.Basic
import Rollup.Proofs.Binary64.Rounding

namespace Rollup.Binary64

theorem units_lt_succ (rank : Nat) : units rank < units (rank + 1) := by
  rw [units_eq, units_eq]
  by_cases hlow : rank + 1 < 2 ^ 52
  · rw [if_pos (by omega), if_pos hlow]
    omega
  · rw [if_neg hlow]
    by_cases hedge : rank < 2 ^ 52
    · have hrank : rank + 1 = 2 ^ 52 := by omega
      rw [if_pos hedge, hrank]
      omega
    · rw [if_neg hedge]
      by_cases hlast : rank % 2 ^ 52 + 1 < 2 ^ 52
      · -- The next rank is in the same order.
        have hdiv : (rank + 1) / 2 ^ 52 = rank / 2 ^ 52 := by omega
        have hmod : (rank + 1) % 2 ^ 52 = rank % 2 ^ 52 + 1 := by omega
        rw [hdiv, hmod]
        exact Nat.mul_lt_mul_of_pos_right (by omega) (Nat.two_pow_pos _)
      · have hdiv : (rank + 1) / 2 ^ 52 - 1 = rank / 2 ^ 52 - 1 + 1 := by omega
        have hmod : (rank + 1) % 2 ^ 52 = 0 := by omega
        have hdouble : 2 ^ (rank / 2 ^ 52 - 1 + 1) = 2 * 2 ^ (rank / 2 ^ 52 - 1) := Nat.pow_succ'
        rw [hdiv, hmod, hdouble, ← Nat.mul_assoc]
        exact Nat.mul_lt_mul_of_pos_right (by omega) (Nat.two_pow_pos _)

theorem units_strictMono : StrictMono units := strictMono_nat_of_lt_succ units_lt_succ

theorem orderOf_units_dvd (rank : Nat) : 2 ^ orderOf (units rank) 1 ∣ units rank := by
  rw [units_eq]
  split
  · next hlow =>
    have horder := orderOf_mul_two_pow (n := rank) 0 (by omega)
    rw [Nat.pow_zero, Nat.mul_one, Nat.le_zero] at horder
    rw [horder, Nat.pow_zero]
    exact Nat.one_dvd rank
  · have hbits : 2 ^ 52 + rank % 2 ^ 52 < 2 ^ 53 := by omega
    exact dvd_mul_of_dvd_right (pow_dvd_pow 2 (orderOf_mul_two_pow _ hbits)) _

theorem rankOfRatio_units {rank : Nat} (h : rank < infinityRank) :
    rankOfRatio (units rank) 1 = rank := by
  have hlargest : rankOfRatio (units (infinityRank - 1)) 1 < infinityRank := by decide +kernel
  have hle : units rank ≤ units (infinityRank - 1) := units_strictMono.monotone (by omega)
  have hfinite := (rankOfRatio_mono 1 hle).trans_lt hlargest
  exact units_strictMono.injective (units_rankOfRatio_of_dvd (orderOf_units_dvd rank) hfinite)

theorem eq_mul_iff {n d : Nat} (hd : 0 < d) (q : Int) :
    (n : Int) = q * d ↔ n % d = 0 ∧ (n / d : Nat) = q := by
  constructor
  · intro h
    have hdvd : d ∣ n := Int.natCast_dvd_natCast.mp ⟨q, by rw [h, Int.mul_comm]⟩
    refine ⟨Nat.mod_eq_zero_of_dvd hdvd, ?_⟩
    rw [Int.natCast_ediv, h, Int.mul_ediv_cancel _ (by omega)]
  · rintro ⟨hmod, rfl⟩
    exact_mod_cast (Nat.div_mul_cancel (Nat.dvd_of_mod_eq_zero hmod)).symm

theorem signedUnits_eq_iff {x : Binary64} {q : Int} {d : Nat} :
    x.signedUnits = q * d ↔ (units x.rank : Int) = (if x.negative then -q else q) * d := by
  unfold signedUnits
  split
  · rw [Int.neg_mul]
    omega
  · exact Iff.rfl

theorem whole?_eq_some_iff {x : Binary64} {n : Int} :
    x.whole? = some n ↔ x.isFinite = true ∧ x.signedUnits = n * unitsPerOne := by
  have hone : 0 < unitsPerOne := by decide
  rw [signedUnits_eq_iff, eq_mul_iff hone, whole?]
  by_cases hwhole : x.isFinite = true ∧ units x.rank % unitsPerOne = 0
  · rw [if_pos hwhole, Option.some.injEq, and_iff_right hwhole.1, and_iff_right hwhole.2]
    split <;> omega
  · rw [if_neg hwhole, ← and_assoc]
    exact ⟨nofun, fun h => absurd h.1 hwhole⟩

theorem units_of_whole? {x : Binary64} {n : Int} (h : x.whole? = some n) :
    units x.rank = n.natAbs * unitsPerOne := by
  have habs := congrArg Int.natAbs (whole?_eq_some_iff.mp h).2
  rw [Int.natAbs_mul, Int.natAbs_natCast] at habs
  rw [← habs, signedUnits]
  split <;> omega

theorem rank_ofInt {x : Binary64} {n : Int} (h : x.whole? = some n) : (ofInt n).rank = x.rank := by
  have hfinite := (whole?_eq_some_iff.mp h).1
  have hrank : (ofInt n).rank = rankOfRatio (n.natAbs * unitsPerOne) 1 := rfl
  rw [hrank, ← units_of_whole? h]
  exact rankOfRatio_units (of_decide_eq_true hfinite)

theorem eq_of_rank {x y : Binary64} (hsign : x.negative = y.negative) (hrank : x.rank = y.rank) :
    x = y := by
  cases x
  cases y
  cases hsign
  cases hrank
  rfl

/-- An integer that a number stands for is rounded to the number. Only the sign of zero is lost. -/
theorem eq_ofInt_of_whole? {x : Binary64} {n : Int} (h : x.whole? = some n) :
    x = ofInt n ∨ n = 0 ∧ x = zero true := by
  have hrank := (rank_ofInt h).symm
  have hone : (0 : Int) < unitsPerOne := by decide
  have hunits := signedUnits_eq_iff.mp (whole?_eq_some_iff.mp h).2
  have hsign : 0 ≤ if x.negative then -n else n := by
    by_contra hneg
    have hprod := Int.mul_neg_of_neg_of_pos (not_le.mp hneg) hone
    omega
  have hnegative : (ofInt n).negative = decide (n < 0) := rfl
  cases hx : x.negative with
  | false =>
    rw [hx] at hsign
    have hn : ¬ n < 0 := not_lt.mpr hsign
    exact .inl (eq_of_rank (by rw [hx, hnegative, decide_eq_false hn]) hrank)
  | true =>
    rw [hx] at hsign hunits
    by_cases hn : n = 0
    · subst hn
      have hzero : units x.rank = 0 := by simpa using hunits
      exact .inr ⟨rfl, eq_of_rank hx (units_strictMono.injective hzero)⟩
    · have hlt : n < 0 := lt_of_le_of_ne (Int.neg_nonneg.mp hsign) hn
      exact .inl (eq_of_rank (by rw [hx, hnegative, decide_eq_true hlt]) hrank)

end Rollup.Binary64
