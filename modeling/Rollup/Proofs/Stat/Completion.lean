import Rollup.Stat.Completion
import Rollup.Stat.Evaluation
import Rollup.Proofs.Columns

namespace Rollup

namespace Stat

def unsampled (sample : Item) (stat : Stat) : Bool :=
  stat.reduction != .count && (sample.field? stat.field).isNone

def settle (sample : Item) (stat : Stat) : Stat :=
  { stat with measure := ((stat.complete sample).toOption.getD stat).measure }

theorem complete_error {sample : Item} {stat : Stat} (h : stat.unsampled sample = true) :
    stat.complete sample = .error (.unknownField stat.field) := by
  rw [unsampled, Bool.and_eq_true, bne_iff_ne, Option.isNone_iff_eq_none] at h
  rw [complete, if_neg h.1, h.2]

theorem complete_ok {sample : Item} {stat : Stat} (h : stat.unsampled sample = false) :
    stat.complete sample = .ok (stat.settle sample) := by
  by_cases hcount : stat.reduction = .count
  · have hsame : stat.complete sample = .ok stat := by rw [complete, if_pos hcount]
    rw [settle, hsame]
    rfl
  · cases hvalue : sample.field? stat.field with
    | none =>
      rw [unsampled, hvalue] at h
      simp [hcount] at h
    | some value => simp [settle, complete, hcount, hvalue, Except.toOption]

theorem measure_settle (sample : Item) (stat : Stat) :
    (stat.settle sample).measure.getD .len = stat.measure.getD .len := by
  unfold settle complete
  split
  · rfl
  · split
    · rfl
    · simp only [Except.toOption, Option.getD_some]
      split <;> rfl

/-- Without a measure texts are measured by their length, so writing that down changes no value. -/
theorem evaluate_measure {stat : Stat} {measure : Option Measure}
    (h : measure.getD .len = stat.measure.getD .len) (items : List Item) :
    ({ stat with measure := measure } : Stat).evaluate items = stat.evaluate items := by
  have hreduce : ({ stat with measure := measure } : Stat).reduce = stat.reduce := by
    funext values
    simp only [reduce, kept?, h]
  rw [evaluate, evaluate, hreduce]
  rfl

theorem evaluate_settle (sample : Item) (stat : Stat) (items : List Item) :
    (stat.settle sample).evaluate items = stat.evaluate items :=
  evaluate_measure (measure_settle sample stat) items

/-- Whichever sample completes a statistic, and whatever stands in its field there, every group of
items has the value or the error that it has without completion. -/
theorem evaluate_complete {stat completed : Stat} {sample : Item}
    (h : stat.complete sample = .ok completed) :
    (∀ items, completed.evaluate items = stat.evaluate items) ∧
    ∀ (other : Item) (completed' : Stat), stat.complete other = .ok completed' →
      ∀ items, completed'.evaluate items = completed.evaluate items := by
  have hkept : ∀ (other : Item) (completed' : Stat), stat.complete other = .ok completed' →
      ∀ items, completed'.evaluate items = stat.evaluate items := by
    intro other completed' hother items
    cases hsampled : stat.unsampled other with
    | true => cases hother.symm.trans (complete_error hsampled)
    | false =>
      cases hother.symm.trans (complete_ok hsampled)
      exact evaluate_settle other stat items
  refine ⟨hkept sample completed h, fun other completed' hother items => ?_⟩
  rw [hkept other completed' hother, hkept sample completed h]

/-- Numbers and texts under one field: a sample with a text settles the measure, one with a number
leaves it open, and the greatest value is the same. -/
theorem evaluate_complete_mixed :
    let stat : Stat := ⟨"title", .max, none, true⟩
    let textual := Item.ofMembers [("title", .string "Intro")]
    let numeric := Item.ofMembers [("title", .number (.int 3))]
    stat.complete textual = .ok { stat with measure := some .len } ∧
      stat.complete numeric = .ok stat ∧
      stat.evaluate [numeric, textual] = .ok (.int 5) ∧
      ({ stat with measure := some .len } : Stat).evaluate [numeric, textual] = .ok (.int 5) := by
  intro stat textual numeric
  have htextual : stat.complete textual = .ok { stat with measure := some .len } := by
    decide +kernel
  have hnumeric : stat.complete numeric = .ok stat := by decide +kernel
  have hvalue : stat.evaluate [numeric, textual] = .ok (.int 5) := by decide +kernel
  refine ⟨htextual, hnumeric, hvalue, ?_⟩
  exact ((evaluate_complete hnumeric).2 textual _ htextual [numeric, textual]).trans hvalue

end Stat

namespace Columns

variable {columns : Columns} {sample : Item}

theorem complete_eq_ok (h : columns.entries.find? (Stat.unsampled sample ∘ Prod.snd) = none)
    (rest : List Item) : ∃ completed, columns.complete (sample :: rest) = .ok completed ∧
      completed.entries = columns.entries.map fun entry => (entry.1, entry.2.settle sample) := by
  have hentries : columns.entries.mapM (completeEntry sample) =
      .ok (columns.entries.map fun entry => (entry.1, entry.2.settle sample)) := by
    apply Traversal.mapM_eq_map
    intro entry hentry
    have hsampled := Bool.eq_false_iff.mpr (List.find?_eq_none.mp h entry hentry)
    rw [completeEntry, Stat.complete_ok hsampled]
    rfl
  refine ⟨_, by rw [complete, hentries]; rfl, ofList_entries ?_⟩
  rw [List.map_map]
  exact columns.distinct

theorem complete_eq_error {entry : String × Stat}
    (h : columns.entries.find? (Stat.unsampled sample ∘ Prod.snd) = some entry)
    (rest : List Item) :
    columns.complete (sample :: rest) = .error (.unknownField entry.2.field) := by
  have hentries : columns.entries.mapM (completeEntry sample) =
      .error (.unknownField entry.2.field) := by
    have hunsampled := List.find?_some h
    refine Traversal.mapM_first_error ?_ h
      (by rw [completeEntry, Stat.complete_error hunsampled]; rfl)
    intro other _ hother
    exact ⟨_, by rw [completeEntry, Stat.complete_ok hother]; rfl⟩
  rw [complete, hentries]
  rfl

theorem complete_entries {completed : Columns} {items : List Item}
    (h : columns.complete items = .ok completed) : ∃ sample, items.head? = some sample ∧
      completed.entries = columns.entries.map fun entry => (entry.1, entry.2.settle sample) := by
  cases items with
  | nil => cases h
  | cons sample rest =>
    cases hfind : columns.entries.find? (Stat.unsampled sample ∘ Prod.snd) with
    | some entry => cases h.symm.trans (complete_eq_error hfind rest)
    | none =>
      obtain ⟨completed', hcomplete, hentries⟩ := complete_eq_ok hfind rest
      cases h.symm.trans hcomplete
      exact ⟨sample, rfl, hentries⟩

end Columns

end Rollup
