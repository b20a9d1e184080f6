import Rollup.Proofs.Stat.PartialSums

namespace Rollup

namespace Number

theorem spread_of_held {low high : Int64} (h : Held (high.toInt - low.toInt)) :
    spread (.int low) (.int high) = .int (.ofInt (high.toInt - low.toInt)) := by
  simp only [spread, ofInt?_of_held h, Option.getD_some]

theorem spread_of_not_held {low high : Int64} (h : ¬ Held (high.toInt - low.toInt)) :
    spread (.int low) (.int high) =
      .real ((Binary64.ofInt high.toInt).sub (.ofInt low.toInt)) := by
  simp only [spread, ofInt?_of_not_held h, Option.getD_none]
  rfl

end Number

namespace Stat

open Number (Held Fits rounded)

variable {stat : Stat} {items : List Item} {values : List Scalar}

/-- The values that are reduced, in the order in which they are: with `distinct` each of them once,
in ascending order. -/
def Keeps (stat : Stat) (values kept : List Scalar) : Prop :=
  if stat.distinct then Scalar.Once values kept else kept = values

def Reduces (stat : Stat) (values : List Scalar) (ns : List Int64) : Prop :=
  ∃ kept, stat.Keeps values kept ∧
    kept.map (Scalar.measured (stat.measure.getD .len)) = ns.map .int

theorem kept?_eq_some_iff (hkinds : Scalar.Unmixed values) {kept : List Scalar} :
    stat.kept? values = some kept ↔ stat.Keeps values kept := by
  rw [kept?, Keeps]
  split
  · obtain ⟨once, honce?, honce⟩ := hkinds.once_distinct
    rw [honce?, Option.some.injEq]
    exact ⟨fun h => h ▸ honce, fun h => honce.unique h⟩
  · rw [Option.some.injEq, eq_comm]

theorem reduces_iff (hkinds : Scalar.Unmixed values) {ns : List Int64} :
    stat.Reduces values ns ↔ stat.reduced? values = some (ns.map .int) := by
  simp only [Reduces, ← kept?_eq_some_iff hkinds, reduced?, Option.map_eq_some_iff]

theorem exists_reduces (stat : Stat) (hwhole : ∀ x : Binary64, .number (.real x) ∉ values) :
    ∃ ns, stat.Reduces values ns := by
  have hkinds : Scalar.Unmixed values := fun _ x _ => hwhole x
  have hkeeps : ∃ kept, stat.Keeps values kept := by
    cases hdistinct : stat.distinct with
    | false => exact ⟨values, (kept?_eq_some_iff hkinds).mp (kept?_eq_some hdistinct values)⟩
    | true =>
      obtain ⟨kept, -, honce⟩ := hkinds.once_distinct
      exact ⟨kept, by rwa [Keeps, if_pos hdistinct]⟩
  obtain ⟨kept, hkeeps⟩ := hkeeps
  have hkept := kept_of_some ((kept?_eq_some_iff hkinds).mpr hkeeps)
  have hrange : kept.map (Scalar.measured (stat.measure.getD .len)) ∈
      Set.range (List.map Number.int) := by
    rw [Set.range_list_map]
    intro number hnumber
    obtain ⟨value, hvalue, rfl⟩ := List.mem_map.mp hnumber
    cases value with
    | text s => exact ⟨_, rfl⟩
    | number n =>
      cases n with
      | int n => exact ⟨n, rfl⟩
      | real x => exact absurd (hkept.subset hvalue) (hwhole x)
  obtain ⟨ns, hns⟩ := hrange
  exact ⟨ns, kept, hkeeps, hns.symm⟩

section Results

variable {ns : List Int64} (h : stat.reduced? values = some (ns.map .int))
include h

theorem reduce_sum (hsum : stat.reduction = .sum) :
    (Fits 0 (ns.map Int64.toInt) → ∃ total : Int64,
      stat.reduce values = .ok (.int total) ∧ total.toInt = (ns.map Int64.toInt).sum) ∧
    (¬ Fits 0 (ns.map Int64.toInt) → stat.reduce values = .ok (.real (rounded ns))) := by
  rw [reduce_of_sum hsum h]
  refine ⟨fun hfits => ?_, fun hfits => by rw [Number.sum_of_not_fits hfits]⟩
  exact ⟨_, by rw [Number.sum_of_fits hfits], hfits.held_sum.toInt_ofInt⟩

theorem reduce_range (hrange : stat.reduction = .range) (hne : ns ≠ []) :
    ∃ low ∈ ns, ∃ high ∈ ns, (∀ n ∈ ns, low ≤ n ∧ n ≤ high) ∧
      (high.toInt - low.toInt ≤ Int64.maxValue.toInt → ∃ distance : Int64,
        stat.reduce values = .ok (.int distance) ∧ 0 ≤ distance.toInt ∧
          distance.toInt = high.toInt - low.toInt) ∧
      (Int64.maxValue.toInt < high.toInt - low.toInt →
        stat.reduce values = .ok (.real ((Binary64.ofInt high.toInt).sub (.ofInt low.toInt)))) := by
  obtain ⟨low, hlow, hleast, hlower⟩ := Reduction.min_finds ns hne
  obtain ⟨high, hhigh, hgreatest, hupper⟩ := Reduction.max_finds ns hne
  have hreduce : stat.reduction.reduce? (ns.map .int) =
      some (Number.spread (.int low) (.int high)) := by
    have hleast : Number.least? (ns.map .int) = some (.int low) := hleast
    have hgreatest : Number.greatest? (ns.map .int) = some (.int high) := hgreatest
    simp only [hrange, Reduction.reduce?, hleast, hgreatest, Option.bind_some, Option.map_some]
  have hle : low.toInt ≤ high.toInt := Int64.le_iff_toInt_le.mp (hlower high hhigh)
  have hmax : Int64.maxValue.toInt = 0x7FFFFFFFFFFFFFFF := by decide
  rw [reduce_eq_ok h hreduce]
  refine ⟨low, hlow, high, hhigh, fun n hn => ⟨hlower n hn, hupper n hn⟩, ?_, ?_⟩
  · intro hfits
    have hheld : Held (high.toInt - low.toInt) := ⟨by omega, by omega⟩
    refine ⟨_, by rw [Number.spread_of_held hheld], ?_, hheld.toInt_ofInt⟩
    rw [hheld.toInt_ofInt]
    omega
  · intro hgreater
    have hheld : ¬ Held (high.toInt - low.toInt) := fun hheld => by have := hheld.2; omega
    rw [Number.spread_of_not_held hheld]

end Results

/-- Over integers and texts a sum is an integer exactly when all its partial sums are held, and then
it is exact. The bounds are integers, and their distance is one exactly when it is held. -/
theorem evaluate_whole (stat : Stat) {items : List Item} {values : List Scalar}
    (h : items.map (·.field? stat.field) = values.map some)
    (hwhole : ∀ x : Binary64, .number (.real x) ∉ values) :
    (∃ ns, stat.Reduces values ns) ∧ ∀ ns, stat.Reduces values ns →
      (stat.reduction = .sum →
        (Fits 0 (ns.map Int64.toInt) → ∃ total : Int64,
          stat.evaluate items = .ok (.int total) ∧ total.toInt = (ns.map Int64.toInt).sum) ∧
        (¬ Fits 0 (ns.map Int64.toInt) → stat.evaluate items = .ok (.real (rounded ns)))) ∧
      (ns ≠ [] →
        (stat.reduction = .min → ∃ m ∈ ns, stat.evaluate items = .ok (.int m) ∧ ∀ n ∈ ns, m ≤ n) ∧
        (stat.reduction = .max → ∃ m ∈ ns, stat.evaluate items = .ok (.int m) ∧ ∀ n ∈ ns, m ≥ n) ∧
        (stat.reduction = .range → ∃ low ∈ ns, ∃ high ∈ ns, (∀ n ∈ ns, low ≤ n ∧ n ≤ high) ∧
          (high.toInt - low.toInt ≤ Int64.maxValue.toInt → ∃ distance : Int64,
            stat.evaluate items = .ok (.int distance) ∧ 0 ≤ distance.toInt ∧
              distance.toInt = high.toInt - low.toInt) ∧
          (Int64.maxValue.toInt < high.toInt - low.toInt → stat.evaluate items =
            .ok (.real ((Binary64.ofInt high.toInt).sub (.ofInt low.toInt)))))) := by
  refine ⟨stat.exists_reduces hwhole, fun ns hns => ?_⟩
  rw [reduces_iff fun _ x _ => hwhole x] at hns
  rw [evaluate_eq_reduce h]
  refine ⟨reduce_sum hns, fun hne => ⟨fun hmin => ?_, fun hmax => ?_, fun hrange => ?_⟩⟩
  · exact reduce_finds hns (hmin ▸ Reduction.min_finds) hne
  · exact reduce_finds hns (hmax ▸ Reduction.max_finds) hne
  · exact reduce_range hns hrange hne

def mixed : List Scalar := [.int Int64.maxValue, .text "ab", .int (-3), .int Int64.maxValue]

/-- In ascending order the negative integer comes first, so the sum of the distinct values is held,
though the values themselves have a partial sum that is not. The greatest distance is not held
either. -/
theorem evaluate_whole_mixed :
    (Item.holding "size" mixed).map (·.field? "size") = mixed.map some ∧
    (∀ x : Binary64, .number (.real x) ∉ mixed) ∧
    (∃ total : Int64, (Stat.mk "size" .sum none true).evaluate (Item.holding "size" mixed) =
      .ok (.int total) ∧ total.toInt = 9223372036854775806) ∧
    (Stat.mk "size" .sum none false).evaluate (Item.holding "size" mixed) =
      .ok (.real (rounded [Int64.maxValue, 2, -3, Int64.maxValue])) := by
  have h := Item.map_field?_holding "size" mixed
  have hwhole : ∀ x : Binary64, .number (.real x) ∉ mixed := by
    intro x
    simp [mixed]
  refine ⟨h, hwhole, ?_, ?_⟩
  · have honce : Scalar.Once mixed [.int (-3), .int Int64.maxValue, .text "ab"] := by
      refine ⟨by decide +kernel, fun v => ?_⟩
      simp only [mixed, List.mem_cons, List.not_mem_nil, or_false]
      tauto
    have hfits : Fits 0 ([-3, Int64.maxValue, 2].map Int64.toInt) := by
      simp only [List.map_cons, List.map_nil, Number.fits_cons, Number.fits_nil]
      decide
    exact ((evaluate_whole ⟨"size", .sum, none, true⟩ h hwhole).2 [-3, Int64.maxValue, 2]
      ⟨_, honce, by decide +kernel⟩).1 rfl |>.1 hfits
  · have hfits : ¬ Fits 0 ([Int64.maxValue, 2, -3, Int64.maxValue].map Int64.toInt) := by
      simp only [List.map_cons, List.map_nil, Number.fits_cons, Number.fits_nil]
      decide
    exact ((evaluate_whole ⟨"size", .sum, none, false⟩ h hwhole).2
      [Int64.maxValue, 2, -3, Int64.maxValue] ⟨_, rfl, by decide +kernel⟩).1 rfl |>.2 hfits

end Stat

end Rollup
