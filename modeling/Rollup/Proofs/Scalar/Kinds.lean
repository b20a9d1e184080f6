import Rollup.Proofs.Scalar.Sameness
import Rollup.Proofs.Sorting
import Rollup.Stat.Evaluation

namespace Rollup

namespace Number

variable {numbers : List Number}

/-- No integer stands beside a floating-point number. -/
def Unmixed (numbers : List Number) : Prop :=
  ∀ (n : Int64) (x : Binary64), .int n ∈ numbers → .real x ∉ numbers

theorem Unmixed.not_straddled (h : Unmixed numbers) {a b : Number} (ha : a ∈ numbers)
    (hb : b ∈ numbers) (c : Number) : ¬ Straddled a b c := by
  rintro ⟨n, -, x, rfl, rfl, -⟩
  exact h n x ha hb

theorem Unmixed.eq_of_compare (h : Unmixed numbers) {a b : Number} (ha : a ∈ numbers)
    (hb : b ∈ numbers) (hcompare : a.compare b = .eq) : a = b := by
  cases a with
  | int m =>
    cases b with
    | int n => rw [Int64.toInt_inj.mp (Int.compare_eq_eq.mp hcompare)]
    | real y => exact absurd hb (h m y ha)
  | real x =>
    cases b with
    | int n => exact absurd ha (h n x hb)
    | real y => exact congrArg real (compare_real_eq.mp hcompare)

theorem Unmixed.eq_of_not_below (h : Unmixed numbers) {a b : Number} (ha : a ∈ numbers)
    (hb : b ∈ numbers) (hab : a.below b = false) (hba : b.below a = false) : a = b := by
  apply h.eq_of_compare ha hb
  rw [Bool.eq_false_iff, Ne, below_eq_true] at hab
  rw [below_eq_false] at hba
  cases hcompare : a.compare b with
  | eq => rfl
  | lt => exact absurd hcompare hab
  | gt => exact absurd hcompare hba

end Number

namespace Scalar

variable {values : List Scalar}

/-- No integer stands beside a floating-point number. -/
def Unmixed (values : List Scalar) : Prop :=
  ∀ (n : Int64) (x : Binary64), .number (.int n) ∈ values → .number (.real x) ∉ values

theorem mem_numbers {n : Number} : n ∈ values.filterMap number? ↔ .number n ∈ values := by
  rw [List.mem_filterMap]
  constructor
  · rintro ⟨v, hv, hn⟩
    cases v with
    | number m => cases hn; exact hv
    | text s => cases hn
  · exact fun hn => ⟨_, hn, rfl⟩

theorem Unmixed.numbers (h : Unmixed values) : Number.Unmixed (values.filterMap number?) :=
  fun n x hn hx => h n x (mem_numbers.mp hn) (mem_numbers.mp hx)

theorem Unmixed.not_straddled (h : Unmixed values) {a b : Scalar} (ha : a ∈ values)
    (hb : b ∈ values) (c : Scalar) : ¬ Straddled a b c := by
  rintro ⟨x, y, z, rfl, rfl, rfl, hs⟩
  exact h.numbers.not_straddled (mem_numbers.mpr ha) (mem_numbers.mpr hb) z hs

theorem Unmixed.eq_of_compare (h : Unmixed values) {a b : Scalar} (ha : a ∈ values)
    (hb : b ∈ values) (hcompare : a.compare b = .eq) : a = b := by
  cases a with
  | number m =>
    cases b with
    | number n =>
      rw [h.numbers.eq_of_compare (mem_numbers.mpr ha) (mem_numbers.mpr hb) hcompare]
    | text t => cases hcompare
  | text s =>
    cases b with
    | number n => cases hcompare
    | text t => rw [compare_text_eq.mp hcompare]

theorem Unmixed.measured (h : Unmixed values)
    (htexts : ∀ (x : Binary64) (s : String), .number (.real x) ∈ values → .text s ∉ values)
    (measure : Measure) : Number.Unmixed (values.map (measured measure)) := by
  intro n x hn hx
  obtain ⟨v, hv, hvn⟩ := List.mem_map.mp hn
  obtain ⟨w, hw, hwx⟩ := List.mem_map.mp hx
  cases w with
  | text t => cases hwx
  | number y =>
    obtain rfl : y = .real x := hwx
    cases v with
    | text s => exact htexts x s hw hv
    | number m =>
      obtain rfl : m = .int n := hvn
      exact h n x hv hw

theorem orderedOn_below (h : ∀ a ∈ values, ∀ b ∈ values, ∀ c ∈ values, ¬ Straddled a b c) :
    OrderedOn below values where
  asymm a _ b _ hab := by
    rw [below_eq_true] at hab
    rw [below_eq_false, hab]
    exact nofun
  trans a ha b hb c hc hab hbc := by
    rw [below_eq_false] at hab hbc ⊢
    exact (compare_trans_iff c b a).mpr (h c hc b hb a ha) hbc hab

/-- More values than are sorted by insertion, three of which straddle. -/
def Tangled (values : List Scalar) : Prop :=
  20 < values.length ∧ ∃ a ∈ values, ∃ b ∈ values, ∃ c ∈ values, Straddled a b c

theorem tangled_of_unsorted (h : sort? below values = none) : Tangled values := by
  obtain ⟨hlength, hordered⟩ := sort?_eq_none h
  refine ⟨hlength, ?_⟩
  by_contra hnone
  push Not at hnone
  exact hordered (orderedOn_below hnone)

end Scalar

end Rollup
