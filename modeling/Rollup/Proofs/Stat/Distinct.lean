import Rollup.Proofs.Scalar.Distinct
import Rollup.Proofs.Stat.Bounds

namespace Rollup.Stat

variable {stat : Stat} {items : List Item} {values : List Scalar}

def withRepeats (stat : Stat) : Stat := { stat with distinct := false }

theorem reduced_withRepeats (stat : Stat) (values : List Scalar) :
    stat.withRepeats.reduced? values =
      some (values.map (Scalar.measured (stat.measure.getD .len))) := rfl

theorem reduced_of_distinct (hdistinct : stat.distinct = true) {kept : List Scalar}
    (hkept : Scalar.distinct? values = some kept) :
    stat.reduced? values = some (kept.map (Scalar.measured (stat.measure.getD .len))) := by
  rw [reduced?, kept?, if_pos hdistinct, hkept, Option.map_some]

theorem reduce_withRepeats_distinct (hdistinct : stat.distinct = true) {kept : List Scalar}
    (hkept : Scalar.distinct? values = some kept) :
    stat.withRepeats.reduce kept = stat.reduce values :=
  reduce_congr rfl rfl (reduced_of_distinct hdistinct hkept) (reduced_withRepeats stat kept) rfl

theorem reduce_withRepeats (hdistinct : stat.distinct = true) (hkinds : Scalar.Unmixed values)
    (htexts : ∀ (x : Binary64) (s : String), .number (.real x) ∈ values → .text s ∉ values)
    (hbound : stat.reduction = .min ∨ stat.reduction = .max ∨ stat.reduction = .range) :
    stat.withRepeats.reduce values = stat.reduce values := by
  obtain ⟨kept, hkept, honce⟩ := hkinds.once_distinct
  let measured := List.map (Scalar.measured (stat.measure.getD .len))
  have hmeasured : Number.Unmixed (measured values) :=
    hkinds.measured htexts (stat.measure.getD .len)
  have hsame : ∀ n, n ∈ measured kept ↔ n ∈ measured values := by
    intro n
    simp only [measured, List.mem_map, honce.mem_iff]
  have hleast := Number.least?_congr hmeasured hsame
  have hgreatest := Number.greatest?_congr hmeasured hsame
  refine reduce_congr rfl rfl (reduced_of_distinct hdistinct hkept)
    (reduced_withRepeats stat values) ?_
  change stat.reduction.reduce? (measured values) = stat.reduction.reduce? (measured kept)
  obtain h | h | h := hbound <;> simp only [h, Reduction.reduce?, hleast, hgreatest]

/-- A statistic over distinct values is the same statistic over items that hold each of them once,
in ascending order. So it depends on nothing but the set of values, and where texts do not stand
beside floating-point numbers either its bounds are those with repeats. -/
theorem evaluate_distinct (stat : Stat) (hdistinct : stat.distinct = true)
    (h : items.map (·.field? stat.field) = values.map some) (hkinds : Scalar.Unmixed values) :
    (∃! kept, Scalar.Once values kept) ∧
    (∀ kept, Scalar.Once values kept →
      (∃ single : List Item, single.map (·.field? stat.field) = kept.map some) ∧
      ∀ single : List Item, single.map (·.field? stat.field) = kept.map some →
        stat.evaluate items = stat.withRepeats.evaluate single) ∧
    (∀ (others : List Item) (values' : List Scalar),
      others.map (·.field? stat.field) = values'.map some → (∀ v, v ∈ values' ↔ v ∈ values) →
      stat.evaluate others = stat.evaluate items) ∧
    ((∀ (x : Binary64) (s : String), .number (.real x) ∈ values → .text s ∉ values) →
      stat.reduction = .min ∨ stat.reduction = .max ∨ stat.reduction = .range →
      stat.evaluate items = stat.withRepeats.evaluate items) := by
  obtain ⟨chosen, hchosen, honce⟩ := hkinds.once_distinct
  refine ⟨⟨_, honce, fun other hother => hother.unique honce⟩, ?_, ?_, ?_⟩
  · intro kept hkept
    obtain rfl := hkept.unique honce
    refine ⟨⟨_, Item.map_field?_holding stat.field _⟩, fun single hsingle => ?_⟩
    have hevaluate : stat.withRepeats.evaluate single = _ := evaluate_eq_reduce hsingle
    rw [evaluate_eq_reduce h, hevaluate, reduce_withRepeats_distinct hdistinct hchosen]
  · intro others values' hothers hsame
    have hkinds' : Scalar.Unmixed values' := fun n x hn hx =>
      hkinds n x ((hsame _).mp hn) ((hsame _).mp hx)
    obtain ⟨chosen', hchosen', honce'⟩ := hkinds'.once_distinct
    obtain rfl : chosen' = chosen :=
      Scalar.Once.unique ⟨honce'.ascending, fun v => (honce'.mem_iff v).trans (hsame v)⟩ honce
    rw [evaluate_eq_reduce hothers, evaluate_eq_reduce h,
      ← reduce_withRepeats_distinct hdistinct hchosen',
      reduce_withRepeats_distinct hdistinct hchosen]
  · intro htexts hbound
    have hevaluate : stat.withRepeats.evaluate items = _ := evaluate_eq_reduce h
    rw [evaluate_eq_reduce h, hevaluate, reduce_withRepeats hdistinct hkinds htexts hbound]

/-- Two texts of one length are two values: a sum of lengths counts both, and each of them once. -/
theorem evaluate_distinct_lengths :
    (Item.holding "key" [.text "Am", .number (.int 7), .text "Bb", .text "Am"]).map
      (·.field? "key") = [.text "Am", .number (.int 7), .text "Bb", .text "Am"].map some ∧
    Scalar.Unmixed [.text "Am", .number (.int 7), .text "Bb", .text "Am"] ∧
    (Stat.mk "key" .sum none true).evaluate
      (Item.holding "key" [.text "Am", .number (.int 7), .text "Bb", .text "Am"]) =
        .ok (.int 11) := by
  have h := Item.map_field?_holding "key" [.text "Am", .number (.int 7), .text "Bb", .text "Am"]
  have hkinds : Scalar.Unmixed [.text "Am", .number (.int 7), .text "Bb", .text "Am"] := by
    intro n x _ hx
    simp at hx
  have honce : Scalar.Once [.text "Am", .number (.int 7), .text "Bb", .text "Am"]
      [.number (.int 7), .text "Am", .text "Bb"] := by
    refine ⟨by decide +kernel, fun v => ?_⟩
    simp only [List.mem_cons, List.not_mem_nil, or_false]
    tauto
  refine ⟨h, hkinds, ?_⟩
  obtain ⟨-, hsingle, -⟩ := evaluate_distinct ⟨"key", .sum, none, true⟩ rfl h hkinds
  rw [(hsingle _ honce).2 _ (Item.map_field?_holding "key" _)]
  decide +kernel

end Rollup.Stat
