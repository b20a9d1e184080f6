import Rollup.Scalar
import Rollup.Proofs.Binary64.Rounding

namespace Rollup

namespace Number

theorem compare_real_left (x : Binary64) (y : Number) :
    (Number.real x).compare y = x.total y.toReal := by
  cases y <;> rfl

theorem compare_real_right (x : Number) (y : Binary64) :
    x.compare (.real y) = x.toReal.total y := by
  cases x <;> rfl

theorem compare_swap (x y : Number) : x.compare y = (y.compare x).swap := by
  cases x with
  | int m =>
    cases y with
    | int n => exact (Int.compare_swap ..).symm
    | real y => exact Binary64.total_swap ..
  | real x =>
    rw [compare_real_left, compare_real_right]
    exact Binary64.total_swap ..

theorem place_le_of_compare {x y : Number} (h : x.compare y ≠ .gt) :
    x.toReal.place ≤ y.toReal.place := by
  cases x with
  | int m =>
    cases y with
    | int n => exact Binary64.place_ofInt_mono (Int.compare_ne_gt.mp h)
    | real y => exact Binary64.total_ne_gt.mp h
  | real x =>
    rw [compare_real_left] at h
    exact Binary64.total_ne_gt.mp h

theorem compare_self (x : Number) : x.compare x = .eq := by
  cases x with
  | int n => exact Int.compare_eq_eq.mpr rfl
  | real x => exact Int.compare_eq_eq.mpr rfl

theorem below_eq_true {x y : Number} : x.below y = true ↔ x.compare y = .lt := beq_iff_eq

theorem below_eq_false {x y : Number} : x.below y = false ↔ y.compare x ≠ .gt := by
  rw [compare_swap y x, below]
  cases x.compare y <;> decide

theorem compare_eq_gt {x y : Number} : x.compare y = .gt ↔ y.below x = true := by
  rw [compare_swap x y, below]
  cases y.compare x <;> decide

theorem below_irrefl (x : Number) : x.below x = false := by
  rw [below_eq_false, compare_self]
  exact nofun

theorem below_asymm {x y : Number} (h : x.below y = true) : y.below x = false := by
  rw [below_eq_true] at h
  rw [below_eq_false, h]
  exact nofun

/-- Two integers, the greater one first, and between them the floating-point number that both of
them round to. -/
def Straddled (a b c : Number) : Prop :=
  ∃ (m n : Int64) (x : Binary64), a = .int m ∧ b = .real x ∧ c = .int n ∧
    n.toInt < m.toInt ∧ Binary64.ofInt m.toInt = x ∧ Binary64.ofInt n.toInt = x

theorem Straddled.compare {a b c : Number} (h : Straddled a b c) :
    a.compare b ≠ .gt ∧ b.compare c ≠ .gt ∧ a.compare c = .gt := by
  obtain ⟨m, n, x, rfl, rfl, rfl, hlt, hm, hn⟩ := h
  refine ⟨?_, ?_, Int.compare_eq_gt.mpr hlt⟩
  · rw [compare_real_right, Binary64.total_ne_gt]
    exact le_of_eq (congrArg Binary64.place hm)
  · rw [compare_real_left, Binary64.total_ne_gt]
    exact le_of_eq (congrArg Binary64.place hn.symm)

theorem Straddled.large {m n : Int64} {b : Number} (h : Straddled (.int m) b (.int n)) :
    2 ^ 53 < m.toInt.natAbs ∨ 2 ^ 53 < n.toInt.natAbs := by
  obtain ⟨_, _, x, hm, _, hn, hlt, hx, hy⟩ := h
  cases hm
  cases hn
  by_contra hsmall
  rw [not_or, Nat.not_lt, Nat.not_lt] at hsmall
  have heq := Binary64.ofInt_injective hsmall.1 hsmall.2 (hx.trans hy.symm)
  omega

/-- A chain that turns around begins and ends with integers, and rounding makes its three numbers
one. -/
theorem straddled_of_compare {a b c : Number} (hab : a.compare b ≠ .gt) (hbc : b.compare c ≠ .gt)
    (hac : a.compare c = .gt) : Straddled a b c := by
  have hpab := place_le_of_compare hab
  have hpbc := place_le_of_compare hbc
  cases a with
  | real x =>
    rw [compare_real_left] at hac
    exact absurd hac (Binary64.total_ne_gt.mpr (hpab.trans hpbc))
  | int m =>
    cases c with
    | real z =>
      rw [compare_real_right] at hac
      exact absurd hac (Binary64.total_ne_gt.mpr (hpab.trans hpbc))
    | int n =>
      have hlt : n.toInt < m.toInt := Int.compare_eq_gt.mp hac
      have hround := Binary64.place_ofInt_mono hlt.le
      cases b with
      | int k =>
        have hmk : m.toInt ≤ k.toInt := Int.compare_ne_gt.mp hab
        have hkn : k.toInt ≤ n.toInt := Int.compare_ne_gt.mp hbc
        omega
      | real x =>
        refine ⟨m, n, x, rfl, rfl, rfl, hlt, ?_, ?_⟩
        · exact Binary64.place_injective (le_antisymm hpab (hpbc.trans hround))
        · exact Binary64.place_injective (le_antisymm (hround.trans hpab) hpbc)

/-- To be less is transitive, although not to be greater is not. In a chain that turned around `x`
would have to be the number that is straddled and also one of the integers that straddle it. -/
theorem below_trans {x y z : Number} (hxy : x.below y = true) (hyz : y.below z = true) :
    x.below z = true := by
  by_contra hxz
  rw [Bool.not_eq_true, below_eq_false] at hxz
  have hxy' : x.compare y ≠ .gt := below_eq_false.mp (below_asymm hxy)
  have hyz' : y.compare z ≠ .gt := below_eq_false.mp (below_asymm hyz)
  obtain ⟨_, _, _, -, hx, -⟩ := straddled_of_compare hxz hxy' (compare_eq_gt.mpr hyz)
  obtain ⟨_, _, _, -, -, hx', -⟩ := straddled_of_compare hyz' hxz (compare_eq_gt.mpr hxy)
  cases hx.symm.trans hx'

theorem compare_real_eq {x : Number} {y : Binary64} :
    x.compare (.real y) = .eq ↔ x.toReal = y := by
  rw [compare_real_right, Binary64.total_eq_iff]

theorem below_of_rounds {x z : Number} {y : Binary64} (hxy : x.below (.real y) = true)
    (hzy : z.compare (.real y) = .eq) : x.below z = true := by
  rw [below_eq_true, compare_real_right] at hxy
  rw [compare_real_eq] at hzy
  by_contra hxz
  rw [Bool.not_eq_true, below_eq_false] at hxz
  have hplace := place_le_of_compare hxz
  rw [hzy] at hplace
  exact absurd hxy (Binary64.total_ne_lt.mpr hplace)

theorem compare_trans_iff (a b c : Number) :
    (a.compare b ≠ .gt → b.compare c ≠ .gt → a.compare c ≠ .gt) ↔ ¬ Straddled a b c := by
  constructor
  · intro h hs
    exact h hs.compare.1 hs.compare.2.1 hs.compare.2.2
  · intro h hab hbc hac
    exact h (straddled_of_compare hab hbc hac)

end Number

namespace Scalar

theorem compare_text (s t : String) :
    (Scalar.text s).compare (.text t) = if s < t then .lt else if t < s then .gt else .eq := rfl

theorem compare_swap (a b : Scalar) : a.compare b = (b.compare a).swap := by
  cases a with
  | number m =>
    cases b with
    | number n => exact Number.compare_swap m n
    | text t => rfl
  | text s =>
    cases b with
    | number n => rfl
    | text t =>
      rw [compare_text, compare_text]
      by_cases hst : s < t
      · simp [hst, String.lt_asymm hst]
      · by_cases hts : t < s <;> simp [hst, hts]

theorem compare_self (a : Scalar) : a.compare a = .eq := by
  have hswap := compare_swap a a
  cases hcompare : a.compare a with
  | eq => rfl
  | lt => rw [hcompare] at hswap; cases hswap
  | gt => rw [hcompare] at hswap; cases hswap

theorem below_eq_true {a b : Scalar} : a.below b = true ↔ a.compare b = .lt := beq_iff_eq

theorem below_eq_false {a b : Scalar} : a.below b = false ↔ b.compare a ≠ .gt := by
  rw [compare_swap b a, below]
  cases a.compare b <;> decide

theorem compare_text_ne_gt {s t : String} : (Scalar.text s).compare (.text t) ≠ .gt ↔ s ≤ t := by
  rw [compare_text, ← String.not_lt]
  by_cases hst : s < t
  · simp [hst, String.lt_asymm hst]
  · by_cases hts : t < s <;> simp [hst, hts]

/-- Three numbers that straddle. -/
def Straddled (a b c : Scalar) : Prop :=
  ∃ x y z : Number, a = .number x ∧ b = .number y ∧ c = .number z ∧ x.Straddled y z

theorem compare_trans_iff (a b c : Scalar) :
    (a.compare b ≠ .gt → b.compare c ≠ .gt → a.compare c ≠ .gt) ↔ ¬ Straddled a b c := by
  constructor
  · rintro h ⟨x, y, z, rfl, rfl, rfl, hs⟩
    exact (Number.compare_trans_iff x y z).mp h hs
  · intro h hab hbc
    cases a with
    | number x =>
      cases c with
      | text t => exact fun hac => nomatch hac
      | number z =>
        cases b with
        | text s => exact absurd rfl hbc
        | number y =>
          have hs : ¬ x.Straddled y z := fun hs => h ⟨x, y, z, rfl, rfl, rfl, hs⟩
          exact (Number.compare_trans_iff x y z).mpr hs hab hbc
    | text s =>
      cases b with
      | number y => exact absurd rfl hab
      | text t =>
        cases c with
        | number z => exact absurd rfl hbc
        | text u =>
          rw [compare_text_ne_gt] at hab hbc ⊢
          exact String.le_trans hab hbc

/-- Comparison is a total preorder on scalars and on numbers, but for the integers that straddle a
floating-point number. One of these is greater than 2^53. -/
theorem compare_preorder_iff_not_straddled (a b c : Scalar) (x y z : Number) :
    a.compare b = (b.compare a).swap ∧
    ((a.compare b ≠ .gt → b.compare c ≠ .gt → a.compare c ≠ .gt) ↔ ¬ a.Straddled b c) ∧
    x.compare y = (y.compare x).swap ∧
    ((x.compare y ≠ .gt → y.compare z ≠ .gt → x.compare z ≠ .gt) ↔ ¬ x.Straddled y z) ∧
    ∀ m n : Int64, (Number.int m).Straddled y (.int n) →
      2 ^ 53 < m.toInt.natAbs ∨ 2 ^ 53 < n.toInt.natAbs :=
  ⟨compare_swap a b, compare_trans_iff a b c, Number.compare_swap x y,
    Number.compare_trans_iff x y z, fun _ _ h => h.large⟩

/-- 2^53 + 1 rounds to 2^53. -/
theorem compare_not_transitive :
    ∃ a b c : Scalar, a = .number (.int 9007199254740993) ∧
      b = .number (.real (.ofInt 9007199254740992)) ∧ c = .number (.int 9007199254740992) ∧
      a.compare b = .eq ∧ b.compare c = .eq ∧ a.compare c = .gt :=
  ⟨_, _, _, rfl, rfl, rfl, by decide +kernel⟩

end Scalar

end Rollup
