import Mathlib.Data.Set.List
import Rollup.Proofs.Scalar.Distinct
import Rollup.Proofs.Traversal
import Rollup.Stat.Evaluation

namespace Rollup

theorem Reduction.reduce?_isSome (reduction : Reduction) {numbers : List Number}
    (h : numbers ≠ []) : ∃ result, reduction.reduce? numbers = some result := by
  obtain ⟨x, xs, rfl⟩ := List.exists_cons_of_ne_nil h
  cases reduction <;> exact ⟨_, rfl⟩

def Item.holding (field : String) (values : List Scalar) : List Item :=
  values.map fun value => ⟨Keyed.empty.insert field value⟩

theorem Item.map_field?_holding (field : String) (values : List Scalar) :
    (holding field values).map (·.field? field) = values.map some := by
  rw [holding, List.map_map]
  apply List.map_congr_left
  intro value _
  exact List.lookup_cons_self

namespace Stat

variable {stat : Stat} {items : List Item}

def lacking (items : List Item) (stat : Stat) : Bool :=
  stat.readsField && items.any fun item => (item.field? stat.field).isNone

theorem lacking_eq_false :
    stat.lacking items = false ↔
      (stat.readsField = true → ∀ item ∈ items, (item.field? stat.field).isSome) := by
  rw [lacking, Bool.and_eq_false_imp]
  simp [Option.isSome_iff_ne_none]

theorem values_ok (h : ∀ item ∈ items, (item.field? stat.field).isSome) :
    ∃ values : List Scalar, items.map (·.field? stat.field) = values.map some := by
  have hrange : items.map (·.field? stat.field) ∈ Set.range (List.map some) := by
    rw [Set.range_list_map]
    intro value? hvalue
    obtain ⟨item, hitem, rfl⟩ := List.mem_map.mp hvalue
    obtain ⟨value, hvalue⟩ := Option.isSome_iff_exists.mp (h item hitem)
    exact ⟨value, hvalue.symm⟩
  obtain ⟨values, hvalues⟩ := hrange
  exact ⟨values, hvalues.symm⟩

theorem values_eq_ok {values : List Scalar}
    (h : items.map (·.field? stat.field) = values.map some) : stat.values items = .ok values := by
  rw [Stat.values, Traversal.mapM_eq_ok]
  apply (Traversal.forall₂_of_map h).imp
  intro item value hvalue
  rw [hvalue]

theorem values_error (h : items.any fun item => (item.field? stat.field).isNone) :
    stat.values items = .error (.unknownField stat.field) := by
  rw [List.any_eq_true] at h
  obtain ⟨item, hfind⟩ := Option.isSome_iff_exists.mp (List.find?_isSome.mpr h)
  have hnone := List.find?_some hfind
  rw [Option.isNone_iff_eq_none] at hnone
  refine Traversal.mapM_first_error ?_ hfind (by rw [hnone])
  intro other _ hother
  obtain ⟨value, hvalue⟩ := Option.isSome_iff_exists.mp (Option.isNone_eq_false_iff.mp hother)
  exact ⟨value, by rw [hvalue]⟩

section Reduced

variable {values : List Scalar} {numbers : List Number}

/-- The numbers that are reduced: those of the values, or of the distinct values. -/
def reduced? (stat : Stat) (values : List Scalar) : Option (List Number) :=
  (stat.kept? values).map (List.map (Scalar.measured (stat.measure.getD .len)))

theorem kept?_eq_some (hplain : stat.distinct = false) (values : List Scalar) :
    stat.kept? values = some values := by
  rw [kept?, if_neg (Bool.eq_false_iff.mp hplain)]

theorem kept?_eq_none (h : stat.kept? values = none) :
    stat.distinct = true ∧ Scalar.Tangled values := by
  rw [kept?] at h
  split at h
  · next hdistinct => exact ⟨hdistinct, Scalar.distinct?_eq_none h⟩
  · cases h

theorem reduce_of_reduced (h : stat.reduced? values = some numbers) :
    stat.reduce values = (stat.reduction.reduce? numbers).elim
      (.error (.emptyCollection (stat.reduction.name ++ "|" ++ stat.field))) .ok := by
  obtain ⟨kept, hkept, rfl⟩ := Option.map_eq_some_iff.mp h
  cases hresult : stat.reduction.reduce? (kept.map (Scalar.measured (stat.measure.getD .len))) <;>
    simp only [reduce, hkept, hresult, Option.elim]

theorem reduce_eq_ok (h : stat.reduced? values = some numbers) {result : Number}
    (hresult : stat.reduction.reduce? numbers = some result) : stat.reduce values = .ok result := by
  rw [reduce_of_reduced h, hresult, Option.elim_some]

theorem reduce_congr {other : Stat} {values' : List Scalar} {numbers' : List Number}
    (hreduction : other.reduction = stat.reduction) (hfield : other.field = stat.field)
    (h : stat.reduced? values = some numbers) (h' : other.reduced? values' = some numbers')
    (hresult : stat.reduction.reduce? numbers' = stat.reduction.reduce? numbers) :
    other.reduce values' = stat.reduce values := by
  rw [reduce_of_reduced h, reduce_of_reduced h', hreduction, hfield, hresult]

theorem reduce_unordered (h : stat.reduced? values = none) :
    stat.reduce values = .error .unordered := by
  rw [reduce, Option.map_eq_none_iff.mp h]

theorem reduced_ne_nil (h : stat.reduced? values = some numbers) (hne : values ≠ []) :
    numbers ≠ [] := by
  obtain ⟨kept, hkept, rfl⟩ := Option.map_eq_some_iff.mp h
  rw [Ne, List.map_eq_nil_iff]
  rw [kept?] at hkept
  split at hkept
  · exact Scalar.distinct_ne_nil hkept hne
  · rwa [← Option.some.inj hkept]

end Reduced

theorem evaluate_eq_reduce {values : List Scalar}
    (h : items.map (·.field? stat.field) = values.map some) :
    stat.evaluate items = stat.reduce values := by
  cases hreads : stat.readsField with
  | true =>
    rw [evaluate, if_pos hreads, values_eq_ok h]
    rfl
  | false =>
    rw [readsField, Bool.or_eq_false_iff, bne_eq_false_iff_eq] at hreads
    have hlength : items.length = values.length := by simpa using congrArg List.length h
    rw [evaluate, if_neg (by simp [readsField, hreads]), hlength]
    rw [reduce, kept?_eq_some hreads.2]
    simp only [hreads.1, Reduction.reduce?, List.length_map]

/-- The values cannot be sorted, though each of them is to count once. -/
def unsorted (items : List Item) (stat : Stat) : Bool :=
  (stat.kept? (items.filterMap (·.field? stat.field))).isNone

theorem tangled_of_unsorted (h : stat.unsorted items = true) :
    stat.distinct = true ∧ Scalar.Tangled (items.filterMap (·.field? stat.field)) :=
  kept?_eq_none (Option.isNone_iff_eq_none.mp h)

/-- Why a statistic has no value over a group. -/
def fault? (items : List Item) (stat : Stat) : Option Error :=
  if stat.lacking items then some (.unknownField stat.field)
  else if stat.unsorted items then some .unordered
  else none

theorem fault?_eq_none : stat.fault? items = none ↔
    stat.lacking items = false ∧ stat.unsorted items = false := by
  rw [fault?]
  cases stat.lacking items <;> cases stat.unsorted items <;> simp

theorem fault?_eq_some {e : Error} : stat.fault? items = some e ↔
    stat.lacking items = true ∧ e = .unknownField stat.field ∨
      stat.lacking items = false ∧ stat.unsorted items = true ∧ e = .unordered := by
  rw [fault?]
  cases stat.lacking items <;> cases stat.unsorted items <;> simp [eq_comm]

theorem evaluate_error {e : Error} (h : stat.fault? items = some e) :
    stat.evaluate items = .error e := by
  obtain ⟨hlacking, rfl⟩ | ⟨hlacking, hunsorted, rfl⟩ := fault?_eq_some.mp h
  · rw [lacking, Bool.and_eq_true] at hlacking
    rw [evaluate, if_pos hlacking.1, values_error hlacking.2]
    rfl
  · have hreads : stat.readsField = true := by
      rw [readsField, (tangled_of_unsorted hunsorted).1, Bool.or_true]
    obtain ⟨values, hvalues⟩ := values_ok (lacking_eq_false.mp hlacking hreads)
    rw [unsorted, Traversal.filterMap_of_map hvalues, Option.isNone_iff_eq_none] at hunsorted
    rw [evaluate_eq_reduce hvalues, reduce_unordered (Option.map_eq_none_iff.mpr hunsorted)]

theorem evaluate_ok (hne : items ≠ []) (h : stat.fault? items = none) :
    ∃ result, stat.evaluate items = .ok result := by
  obtain ⟨hlacking, hsorted⟩ := fault?_eq_none.mp h
  by_cases hreads : stat.readsField = true
  · obtain ⟨values, hvalues⟩ := values_ok (lacking_eq_false.mp hlacking hreads)
    have hvne : values ≠ [] := by
      rintro rfl
      exact hne (List.map_eq_nil_iff.mp hvalues)
    rw [unsorted, Traversal.filterMap_of_map hvalues, Option.isNone_eq_false_iff] at hsorted
    obtain ⟨kept, hkept⟩ := Option.isSome_iff_exists.mp hsorted
    have hreduced : stat.reduced? values = some _ := congrArg (Option.map _) hkept
    obtain ⟨result, hresult⟩ := stat.reduction.reduce?_isSome (reduced_ne_nil hreduced hvne)
    exact ⟨result, (evaluate_eq_reduce hvalues).trans (reduce_eq_ok hreduced hresult)⟩
  · exact ⟨_, by rw [evaluate, if_neg hreads]⟩

end Stat

end Rollup
