import Rollup.Proofs.Binary64.Whole

namespace Rollup.Binary64

/-- An integer of at most 53 significant bits. -/
def Representable (n : Int) : Prop := ∃ m k : Nat, m < 2 ^ 53 ∧ n.natAbs = m * 2 ^ k

variable {n a b : Int} {x y : Binary64}

theorem rank_ofInt_mono (h : a.natAbs ≤ b.natAbs) : (ofInt a).rank ≤ (ofInt b).rank :=
  rankOfRatio_mono 1 (Nat.mul_le_mul_right _ h)

theorem rank_ofInt_lt (h : n.natAbs ≤ 2 ^ 63) : (ofInt n).rank < infinityRank := by
  have hlargest : (ofInt (2 ^ 63)).rank < infinityRank := by decide +kernel
  exact (rank_ofInt_mono h).trans_lt hlargest

theorem not_isNaN_ofInt (n : Int) : (ofInt n).isNaN = false :=
  decide_eq_false (Nat.not_lt.mpr (rankOfRatio_le _ _))

theorem le_rank_ofInt (h : 2 ^ 53 ≤ n.natAbs) : 1075 * 2 ^ 52 ≤ (ofInt n).rank := by
  have hleast : 1075 * 2 ^ 52 ≤ (ofInt (2 ^ 53)).rank := by decide +kernel
  exact hleast.trans (rank_ofInt_mono h)

theorem units_of_le_rank {rank : Nat} (h : 1075 * 2 ^ 52 ≤ rank) :
    ∃ m k : Nat, m < 2 ^ 53 ∧ units rank = m * 2 ^ k * unitsPerOne := by
  refine ⟨2 ^ 52 + rank % 2 ^ 52, rank / 2 ^ 52 - 1 - 1074, by omega, ?_⟩
  have horder : rank / 2 ^ 52 - 1 = rank / 2 ^ 52 - 1 - 1074 + 1074 := by omega
  rw [units_eq, if_neg (by omega), unitsPerOne_eq, Nat.mul_assoc, ← Nat.pow_add, ← horder]

theorem exists_whole?_ofInt (h : n.natAbs ≤ 2 ^ 63) : ∃ r, (ofInt n).whole? = some r := by
  have hfinite : (ofInt n).isFinite = true := decide_eq_true (rank_ofInt_lt h)
  have hwhole : units (ofInt n).rank % unitsPerOne = 0 := by
    apply Nat.mod_eq_zero_of_dvd
    obtain hsmall | hlarge := Nat.lt_or_ge n.natAbs (2 ^ 53)
    · rw [units_ofInt hsmall.le]
      exact Nat.dvd_mul_left ..
    · obtain ⟨m, k, -, hunits⟩ := units_of_le_rank (le_rank_ofInt hlarge)
      rw [hunits]
      exact Nat.dvd_mul_left ..
  exact ⟨_, by rw [whole?, if_pos ⟨hfinite, hwhole⟩]⟩

theorem whole?_ofInt_iff_units (h : n.natAbs ≤ 2 ^ 63) :
    (ofInt n).whole? = some n ↔ units (ofInt n).rank = n.natAbs * unitsPerOne := by
  refine ⟨units_of_whole?, fun hunits => ?_⟩
  have hfinite : (ofInt n).isFinite = true := decide_eq_true (rank_ofInt_lt h)
  have hnegative : (ofInt n).negative = decide (n < 0) := rfl
  rw [whole?_eq_some_iff, and_iff_right hfinite, signedUnits_eq_iff, hunits, hnegative,
    Int.natCast_mul]
  congr 1
  simp only [decide_eq_true_eq]
  split <;> omega

/-- An integer keeps its value exactly when it has no more bits than a number holds. -/
theorem whole?_ofInt_iff (h : n.natAbs ≤ 2 ^ 63) :
    (ofInt n).whole? = some n ↔ Representable n := by
  rw [whole?_ofInt_iff_units h]
  constructor
  · intro hunits
    obtain hsmall | hlarge := Nat.lt_or_ge n.natAbs (2 ^ 53)
    · exact ⟨n.natAbs, 0, hsmall, by rw [Nat.pow_zero, Nat.mul_one]⟩
    · obtain ⟨m, k, hm, hmk⟩ := units_of_le_rank (le_rank_ofInt hlarge)
      exact ⟨m, k, hm, Nat.mul_right_cancel (by decide) (hunits.symm.trans hmk)⟩
  · rintro ⟨m, k, hm, hn⟩
    refine units_rankOfRatio_of_dvd ?_ (rank_ofInt_lt h)
    rw [hn, unitsPerOne_eq, Nat.mul_assoc, ← Nat.pow_add]
    exact dvd_mul_of_dvd_right (pow_dvd_pow 2 (orderOf_mul_two_pow _ hm)) _

theorem representable_of_le (h : n.natAbs ≤ 2 ^ 53) : Representable n :=
  (whole?_ofInt_iff (h.trans (by decide))).mp
    ((whole?_ofInt_iff_units (h.trans (by decide))).mpr (units_ofInt h))

theorem ofInt_ne_zero (n : Int) : ofInt n ≠ zero true := by
  intro h
  have hnegative : decide (n < 0) = true := congrArg negative h
  have hrank : (ofInt n).rank = 0 := congrArg rank h
  have hone : 0 < (ofInt 1).rank := by decide +kernel
  have hle := rank_ofInt_mono (a := 1) (b := n) (by have := of_decide_eq_true hnegative; omega)
  omega

theorem signedUnits_le_iff (hy : y ≠ zero true) :
    x.signedUnits ≤ y.signedUnits ↔ x.place ≤ y.place := by
  have hmono {r s : Nat} : units r ≤ units s ↔ r ≤ s := units_strictMono.le_iff_le
  unfold signedUnits place
  cases hx : x.negative <;> cases hyn : y.negative <;>
    simp only [Bool.false_eq_true, if_true, if_false]
  · exact_mod_cast hmono
  · have hrank : y.rank ≠ 0 := fun hzero => hy (eq_of_rank hyn hzero)
    have hunits : units 0 < units y.rank := units_strictMono (Nat.pos_of_ne_zero hrank)
    have hzero : units 0 = 0 := rfl
    omega
  · omega
  · have := @hmono y.rank x.rank
    omega

/-- An integer is at most another one, or is taken to be as both are rounded to the same number. -/
theorem atMost_ofInt_iff (a b : Int) :
    (ofInt a).atMost (ofInt b) = true ↔ a ≤ b ∨ ofInt a = ofInt b := by
  rw [atMost, not_isNaN_ofInt, not_isNaN_ofInt, Bool.not_false, Bool.true_and, Bool.true_and,
    decide_eq_true_eq, signedUnits_le_iff (ofInt_ne_zero b)]
  constructor
  · intro hplace
    obtain hle | hlt := le_or_gt a b
    · exact .inl hle
    · exact .inr (place_injective (le_antisymm hplace (place_ofInt_mono hlt.le)))
  · rintro (hle | heq)
    · exact place_ofInt_mono hle
    · rw [heq]

theorem eq_of_ofInt_eq (ha : a.natAbs < 2 ^ 53) (h : ofInt a = ofInt b) : a = b := by
  by_contra hne
  have hlarge : 2 ^ 53 < b.natAbs := by
    by_contra hsmall
    exact hne (ofInt_injective ha.le (Nat.not_lt.mp hsmall) h)
  -- The power of two between them is rounded to the same number.
  have hbetween {c : Int} (hc : c.natAbs = 2 ^ 53) (hacb : a ≤ c ∧ c ≤ b ∨ b ≤ c ∧ c ≤ a) :
      False := by
    have hplace : (ofInt a).place = (ofInt c).place := by
      obtain ⟨hac, hcb⟩ | ⟨hbc, hca⟩ := hacb
      · exact le_antisymm (place_ofInt_mono hac) (h ▸ place_ofInt_mono hcb)
      · exact le_antisymm (h ▸ place_ofInt_mono hbc) (place_ofInt_mono hca)
    have hac := ofInt_injective ha.le hc.le (place_injective hplace)
    omega
  obtain hb | hb := le_total 0 b
  · exact hbetween (c := 2 ^ 53) rfl (.inl (by omega))
  · exact hbetween (c := -2 ^ 53) rfl (.inr (by omega))

end Rollup.Binary64
