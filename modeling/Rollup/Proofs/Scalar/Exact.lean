import Mathlib.Algebra.Field.Rat
import Rollup.Proofs.Scalar.Sameness

namespace Rollup

/-- What a value stands for: a text, a number without rounding, an infinity, or a NaN, of which
nothing else is known than its bits. -/
inductive Exact where
  | finite (q : ℚ)
  | infinite (negative : Bool)
  | nan (x : Binary64)
  | text (s : String)
deriving DecidableEq

namespace Binary64

def exact (x : Binary64) : Exact :=
  if x.isNaN then .nan x
  else if x.isInfinite then .infinite x.negative
  else .finite (x.signedUnits / unitsPerOne)

variable {x y : Binary64}

theorem exact_of_finite (h : x.rank < infinityRank) :
    x.exact = .finite (x.signedUnits / unitsPerOne) := by
  have hnan : x.isNaN = false := decide_eq_false (by omega)
  have hinfinite : x.isInfinite = false := beq_eq_false_iff_ne.mpr (by omega)
  simp [exact, hnan, hinfinite]

theorem exact_of_infinite (h : x.rank = infinityRank) : x.exact = .infinite x.negative := by
  have hnan : x.isNaN = false := decide_eq_false (by omega)
  have hinfinite : x.isInfinite = true := beq_iff_eq.mpr h
  simp [exact, hnan, hinfinite]

theorem exact_of_nan (h : infinityRank < x.rank) : x.exact = .nan x := by
  have hnan : x.isNaN = true := decide_eq_true h
  simp [exact, hnan]

theorem exact_eq_finite_iff {q : ℚ} :
    x.exact = .finite q ↔ x.isFinite = true ∧ (x.signedUnits : ℚ) / unitsPerOne = q := by
  have hfinite : x.isFinite = true ↔ x.rank < infinityRank := decide_eq_true_iff
  rw [hfinite]
  obtain h | h | h := Nat.lt_trichotomy x.rank infinityRank
  · simp [exact_of_finite h, h]
  · simp [exact_of_infinite h, h]
  · simp [exact_of_nan h, Nat.lt_asymm h]

theorem unitsPerOne_ne_zero : (unitsPerOne : ℚ) ≠ 0 := by
  rw [Nat.cast_ne_zero]
  decide

theorem exact_eq_int_iff {n : Int} : x.exact = .finite n ↔ x.whole? = some n := by
  rw [exact_eq_finite_iff, whole?_eq_some_iff, div_eq_iff unitsPerOne_ne_zero]
  norm_cast

theorem eq_or_zeros_of_signedUnits (h : x.signedUnits = y.signedUnits) :
    x = y ∨ x.rank = 0 ∧ y.rank = 0 := by
  have hzero {rank : Nat} (hunits : units rank = 0) : rank = 0 := units_strictMono.injective hunits
  unfold signedUnits at h
  cases hx : x.negative <;> cases hy : y.negative <;> rw [hx, hy] at h <;>
    simp only [Bool.false_eq_true, if_true, if_false] at h
  · exact .inl (eq_of_rank (hx.trans hy.symm) (units_strictMono.injective (by omega)))
  · exact .inr ⟨hzero (by omega), hzero (by omega)⟩
  · exact .inr ⟨hzero (by omega), hzero (by omega)⟩
  · exact .inl (eq_of_rank (hx.trans hy.symm) (units_strictMono.injective (by omega)))

theorem exact_of_rank_eq_zero (h : x.rank = 0) : x.exact = .finite 0 := by
  have hzero : x = zero x.negative := eq_of_rank rfl h
  rw [hzero]
  cases x.negative <;> decide +kernel

theorem exact_eq_iff : x.exact = y.exact ↔ x = y ∨ x.rank = 0 ∧ y.rank = 0 := by
  constructor
  · intro h
    obtain hx | hx | hx := Nat.lt_trichotomy x.rank infinityRank
    · rw [exact_of_finite hx, eq_comm, exact_eq_finite_iff,
        div_left_inj' unitsPerOne_ne_zero] at h
      exact eq_or_zeros_of_signedUnits (by exact_mod_cast h.2.symm)
    · obtain hy | hy | hy := Nat.lt_trichotomy y.rank infinityRank
      · simp [exact_of_infinite hx, exact_of_finite hy] at h
      · rw [exact_of_infinite hx, exact_of_infinite hy, Exact.infinite.injEq] at h
        exact .inl (eq_of_rank h (hx.trans hy.symm))
      · simp [exact_of_infinite hx, exact_of_nan hy] at h
    · obtain hy | hy | hy := Nat.lt_trichotomy y.rank infinityRank
      · simp [exact_of_nan hx, exact_of_finite hy] at h
      · simp [exact_of_nan hx, exact_of_infinite hy] at h
      · rw [exact_of_nan hx, exact_of_nan hy, Exact.nan.injEq] at h
        exact .inl h
  · rintro (rfl | ⟨hx, hy⟩)
    · rfl
    · rw [exact_of_rank_eq_zero hx, exact_of_rank_eq_zero hy]

theorem exact_ne_text (x : Binary64) (s : String) : x.exact ≠ .text s := by
  unfold exact
  split
  · nofun
  · split <;> nofun

end Binary64

namespace Scalar

def exact : Scalar → Exact
  | .number (.int n) => .finite n.toInt
  | .number (.real x) => x.exact
  | .text s => .text s

/-- The least integer, and the floating-point number of the same value. -/
def Parted (a b : Scalar) : Prop :=
  a = .number (.int Int64.minValue) ∧ b = .number (.real (.ofInt Int64.minValue.toInt))

instance (a b : Scalar) : Decidable (Parted a b) := inferInstanceAs (Decidable (_ ∧ _))

theorem slot_real_eq_iff {x y : Binary64} :
    Slot.ofReal x = .ofReal y ↔ x = y ∨ x.rank = 0 ∧ y.rank = 0 := by
  constructor
  · intro h
    obtain rfl | ⟨rfl, rfl⟩ | ⟨rfl, rfl⟩ := eq_or_zeros_of_ofReal h
    · exact .inl rfl
    · exact .inr ⟨rfl, rfl⟩
    · exact .inr ⟨rfl, rfl⟩
  · rintro (rfl | ⟨hx, hy⟩)
    · rfl
    · have hx : x = .zero x.negative := Binary64.eq_of_rank rfl hx
      have hy : y = .zero y.negative := Binary64.eq_of_rank rfl hy
      rw [hx, hy]
      cases x.negative <;> cases y.negative <;> decide +kernel

theorem slot_int_real_iff {n : Int64} {x : Binary64} :
    (number (.int n)).slot = (number (.real x)).slot ↔
      (number (.int n)).exact = (number (.real x)).exact ∧
        ¬ Parted (.number (.int n)) (.number (.real x)) := by
  have hslot : (number (.int n)).slot = (number (.real x)).slot ↔
      x.whole? = some n.toInt ∧ n ≠ Int64.minValue := by
    rw [← Slot.ofReal_eq_whole_iff]
    exact eq_comm
  have hexact : (number (.int n)).exact = (number (.real x)).exact ↔ x.whole? = some n.toInt := by
    rw [← Binary64.exact_eq_int_iff]
    exact eq_comm
  rw [hslot, hexact]
  refine and_congr_right fun hwhole => not_congr ⟨?_, ?_⟩
  · rintro rfl
    obtain rfl | ⟨hzero, -⟩ := Binary64.eq_ofInt_of_whole? hwhole
    · exact ⟨rfl, rfl⟩
    · cases hzero
  · rintro ⟨hn, -⟩
    cases hn
    rfl

theorem slot_text_ne (s : String) (x : Number) : (text s).slot ≠ (number x).slot := by
  cases x with
  | int n => exact nofun
  | real x =>
    obtain hx | ⟨n, hx⟩ := Slot.ofReal_cases x <;> exact fun h => nomatch h.trans hx

theorem exact_text_ne (s : String) (x : Number) : (text s).exact ≠ (number x).exact := by
  cases x with
  | int n => exact nofun
  | real x => exact (x.exact_ne_text s).symm

/-- One slot for one exact value, with one exception. -/
theorem slot_eq_iff (a b : Scalar) :
    a.slot = b.slot ↔ a.exact = b.exact ∧ ¬ (Parted a b ∨ Parted b a) := by
  cases a with
  | text s =>
    cases b with
    | text t =>
      simp [slot, exact, Parted]
    | number y => exact iff_of_false (slot_text_ne s y) fun h => exact_text_ne s y h.1
  | number x =>
    cases b with
    | text t => exact iff_of_false (slot_text_ne t x).symm fun h => exact_text_ne t x h.1.symm
    | number y =>
      cases x with
      | int m =>
        cases y with
        | int n =>
          have hparted : ¬ (Parted (.number (.int m)) (.number (.int n)) ∨
              Parted (.number (.int n)) (.number (.int m))) := by
            simp [Parted]
          rw [and_iff_left hparted, slot, slot, Slot.whole.injEq, exact, exact,
            Exact.finite.injEq, Rat.intCast_inj, Int64.toInt_inj]
        | real y => rw [slot_int_real_iff, or_iff_left (by simp [Parted])]
      | real x =>
        cases y with
        | int n => rw [eq_comm, slot_int_real_iff, or_iff_right (by simp [Parted]), eq_comm]
        | real y =>
          have hparted : ¬ (Parted (.number (.real x)) (.number (.real y)) ∨
              Parted (.number (.real y)) (.number (.real x))) := by
            simp [Parted]
          rw [and_iff_left hparted, slot, slot, slot_real_eq_iff, exact, exact,
            Binary64.exact_eq_iff]

end Scalar

end Rollup
