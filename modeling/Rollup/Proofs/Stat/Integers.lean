import Mathlib.Data.Set.List
import Rollup.Proofs.Scalar.Distinct
import Rollup.Proofs.Stat.Bounds

namespace Rollup

abbrev Scalar.int (n : Int64) : Scalar := .number (.int n)

theorem Number.below_int (m n : Int64) : (Number.int m).below (.int n) = decide (m < n) := by
  rw [Bool.eq_iff_iff, decide_eq_true_iff, Int64.lt_iff_toInt_lt, ← Int.compare_eq_lt]
  exact beq_iff_eq

theorem Number.unmixed_int (ns : List Int64) : Number.Unmixed (ns.map .int) := by
  intro _ x _ hx
  obtain ⟨n, -, hn⟩ := List.mem_map.mp hx
  cases hn

theorem Scalar.unmixed_int (ns : List Int64) : Scalar.Unmixed (ns.map Scalar.int) := by
  intro _ x _ hx
  obtain ⟨n, -, hn⟩ := List.mem_map.mp hx
  cases hn

theorem Scalar.distinct_int (ns : List Int64) :
    ∃ ks : List Int64, Scalar.distinct? (ns.map Scalar.int) = some (ks.map Scalar.int) ∧
      ∀ n, n ∈ ks ↔ n ∈ ns := by
  obtain ⟨kept, hkept, honce⟩ := (Scalar.unmixed_int ns).once_distinct
  have hrange : kept ∈ Set.range (List.map Scalar.int) := by
    rw [Set.range_list_map]
    intro value hvalue
    obtain ⟨n, -, rfl⟩ := List.mem_map.mp ((honce.mem_iff value).mp hvalue)
    exact ⟨n, rfl⟩
  have hinjective : Function.Injective Scalar.int := by
    intro m n heq
    cases heq
    rfl
  obtain ⟨ks, rfl⟩ := hrange
  refine ⟨ks, hkept, fun n => ?_⟩
  rw [← List.mem_map_of_injective hinjective, honce.mem_iff, List.mem_map_of_injective hinjective]

/-- A reduction that finds among integers one that stands in a relation to all of them. -/
def Reduction.Finds (reduction : Reduction) (r : Int64 → Int64 → Prop) : Prop :=
  ∀ ns : List Int64, ns ≠ [] →
    ∃ m ∈ ns, reduction.reduce? (ns.map .int) = some (.int m) ∧ ∀ n ∈ ns, r m n

theorem Reduction.min_finds : Reduction.min.Finds (· ≤ ·) := by
  intro ns hne
  obtain ⟨number, hnumber, hleast, hbound⟩ := Number.least?_bound (mt List.map_eq_nil_iff.mp hne)
  obtain ⟨m, hm, rfl⟩ := List.mem_map.mp hnumber
  refine ⟨m, hm, hleast, fun n hn => ?_⟩
  have hbelow := hbound (.int n) (List.mem_map_of_mem hn)
  rw [Number.below_int, decide_eq_false_iff_not] at hbelow
  exact Int64.not_lt.mp hbelow

theorem Reduction.max_finds : Reduction.max.Finds (· ≥ ·) := by
  intro ns hne
  obtain ⟨number, hnumber, hgreatest, hbound⟩ :=
    Number.greatest?_bound_of_unmixed (Number.unmixed_int ns) (mt List.map_eq_nil_iff.mp hne)
  obtain ⟨m, hm, rfl⟩ := List.mem_map.mp hnumber
  refine ⟨m, hm, hgreatest, fun n hn => ?_⟩
  have hbelow := hbound (.int n) (List.mem_map_of_mem hn)
  rw [Number.below_int, decide_eq_false_iff_not] at hbelow
  exact Int64.not_lt.mp hbelow

namespace Stat

variable {stat : Stat} {items : List Item} {value : Item → Int64}

def Integral (stat : Stat) (items : List Item) (value : Item → Int64) : Prop :=
  ∀ item ∈ items, item.field? stat.field = some (.int (value item))

theorem Integral.perm (h : stat.Integral items value) {order : List Item}
    (hperm : order.Perm items) : stat.Integral order value :=
  fun item hitem => h item (hperm.mem_iff.mp hitem)

theorem evaluate_integral (h : stat.Integral items value) (hreads : stat.readsField = true) :
    stat.evaluate items = stat.reduce ((items.map value).map .int) := by
  have hvalues : stat.values items = .ok (items.map fun item => .int (value item)) := by
    apply Traversal.mapM_eq_map
    intro item hitem
    rw [h item hitem]
  rw [evaluate, if_pos hreads, hvalues, List.map_map]
  rfl

theorem map_measured_int (measure : Measure) (ns : List Int64) :
    (ns.map Scalar.int).map (Scalar.measured measure) = ns.map .int := by
  rw [List.map_map]
  rfl

theorem reduced_int (stat : Stat) (ns : List Int64) :
    ∃ ks : List Int64, stat.reduced? (ns.map Scalar.int) = some (ks.map .int) ∧
      (∀ n, n ∈ ks ↔ n ∈ ns) ∧ (stat.distinct = false → ks = ns) := by
  cases hdistinct : stat.distinct with
  | false =>
    refine ⟨ns, ?_, fun _ => Iff.rfl, fun _ => rfl⟩
    rw [reduced?, kept?_eq_some hdistinct, Option.map_some, map_measured_int]
  | true =>
    obtain ⟨ks, hks, hmem⟩ := Scalar.distinct_int ns
    refine ⟨ks, ?_, hmem, fun h => Bool.noConfusion h⟩
    rw [reduced?, kept?, if_pos hdistinct, hks, Option.map_some, map_measured_int]

theorem reduce_finds {values : List Scalar} {ns : List Int64}
    (h : stat.reduced? values = some (ns.map .int)) {r : Int64 → Int64 → Prop}
    (hfinds : stat.reduction.Finds r) (hne : ns ≠ []) :
    ∃ m ∈ ns, stat.reduce values = .ok (.int m) ∧ ∀ n ∈ ns, r m n := by
  obtain ⟨m, hm, hresult, hbound⟩ := hfinds ns hne
  exact ⟨m, hm, reduce_eq_ok h hresult, hbound⟩

theorem evaluate_bound {r : Int64 → Int64 → Prop} (hfinds : stat.reduction.Finds r)
    (hreads : stat.readsField = true) (h : stat.Integral items value) (hne : items ≠ []) :
    ∃ best ∈ items, stat.evaluate items = .ok (.int (value best)) ∧
      ∀ item ∈ items, r (value best) (value item) := by
  obtain ⟨ks, hks, hmem, -⟩ := stat.reduced_int (items.map value)
  have hkne : ks ≠ [] := by
    rintro rfl
    obtain ⟨item, hitem⟩ := List.exists_mem_of_ne_nil items hne
    exact List.not_mem_nil ((hmem _).mpr (List.mem_map_of_mem hitem))
  obtain ⟨m, hm, hresult, hbound⟩ := reduce_finds hks hfinds hkne
  obtain ⟨best, hbest, rfl⟩ := List.mem_map.mp ((hmem m).mp hm)
  refine ⟨best, hbest, ?_, fun item hitem => ?_⟩
  · rw [evaluate_integral h hreads, hresult]
  · exact hbound _ ((hmem _).mpr (List.mem_map_of_mem hitem))

end Stat

end Rollup
