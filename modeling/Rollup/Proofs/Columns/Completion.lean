import Rollup.Proofs.Columns.History

namespace Rollup

namespace Stat

structure Unmeasured (sample : Item) (stat : Stat) : Prop where
  measure : stat.measure = none
  reduction : stat.reduction ≠ .count
  text : ∃ s, sample.field? stat.field = some (.text s)

/-- A statistic and what a sample makes of it: texts are measured by their length if nothing else is
said, and all else stays. -/
structure Completes (sample : Item) (stat completed : Stat) : Prop where
  sampled : stat.unsampled sample = false
  field : completed.field = stat.field
  reduction : completed.reduction = stat.reduction
  distinct : completed.distinct = stat.distinct
  measured : stat.Unmeasured sample → completed.measure = some .len
  kept : ¬ stat.Unmeasured sample → completed.measure = stat.measure

variable {sample : Item} {stat completed other : Stat}

theorem completes_self (hsampled : stat.unsampled sample = false)
    (h : ¬ stat.Unmeasured sample) : Completes sample stat stat where
  sampled := hsampled
  field := rfl
  reduction := rfl
  distinct := rfl
  measured hunmeasured := absurd hunmeasured h
  kept _ := rfl

theorem Completes.unique (h : Completes sample stat completed)
    (h' : Completes sample stat other) : completed = other := by
  have hmeasure : completed.measure = other.measure := by
    by_cases hunmeasured : stat.Unmeasured sample
    · rw [h.measured hunmeasured, h'.measured hunmeasured]
    · rw [h.kept hunmeasured, h'.kept hunmeasured]
  cases completed
  cases other
  rw [Stat.mk.injEq]
  exact ⟨h.field.trans h'.field.symm, h.reduction.trans h'.reduction.symm, hmeasure,
    h.distinct.trans h'.distinct.symm⟩

theorem Completes.not_unmeasured (h : Completes sample stat completed) :
    ¬ completed.Unmeasured sample := by
  intro hcompleted
  by_cases hunmeasured : stat.Unmeasured sample
  · cases (h.measured hunmeasured).symm.trans hcompleted.measure
  · apply hunmeasured
    constructor
    · rw [← h.kept hunmeasured, hcompleted.measure]
    · rw [← h.reduction]
      exact hcompleted.reduction
    · rw [← h.field]
      exact hcompleted.text

theorem Completes.again (h : Completes sample stat completed) :
    Completes sample completed completed := by
  refine completes_self ?_ h.not_unmeasured
  rw [unsampled, h.reduction, h.field]
  exact h.sampled

theorem completes_of_complete (h : stat.complete sample = .ok completed) :
    Completes sample stat completed := by
  by_cases hcount : stat.reduction = .count
  · rw [complete, if_pos hcount] at h
    cases h
    exact completes_self (by simp [unsampled, hcount]) fun h => h.reduction hcount
  · rw [complete, if_neg hcount] at h
    cases hvalue : sample.field? stat.field with
    | none =>
      rw [hvalue] at h
      cases h
    | some value =>
      have hsampled : stat.unsampled sample = false := by simp [unsampled, hvalue]
      rw [hvalue] at h
      cases h
      cases value with
      | number n =>
        apply completes_self hsampled
        rintro ⟨-, -, s, hs⟩
        cases hvalue.symm.trans hs
      | text s =>
        refine ⟨hsampled, rfl, rfl, rfl, fun h => ?_, fun h => ?_⟩
        · simp [Scalar.isText, h.measure]
        · cases hmeasure : stat.measure with
          | none => exact absurd ⟨hmeasure, hcount, s, hvalue⟩ h
          | some measure => simp [Scalar.isText]

theorem complete_eq_ok_iff :
    stat.complete sample = .ok completed ↔ Completes sample stat completed := by
  refine ⟨completes_of_complete, fun h => ?_⟩
  have hcomplete := complete_ok h.sampled
  rw [hcomplete, (completes_of_complete hcomplete).unique h]

end Stat

namespace Columns

structure CompletesEntry (sample : Item) (entry completed : String × Stat) : Prop where
  name : completed.1 = entry.1
  stat : entry.2.Completes sample completed.2

/-- Columns and what a sample makes of them, place by place. -/
def Completes (sample : Item) (columns completed : Columns) : Prop :=
  List.Forall₂ (CompletesEntry sample) columns.entries completed.entries

section Entries

variable {sample : Item} {entries completed : List (String × Stat)}

theorem completeEntry_eq_ok_iff {entry completed : String × Stat} :
    completeEntry sample entry = .ok completed ↔ CompletesEntry sample entry completed := by
  rw [completeEntry, Traversal.map_eq_ok]
  constructor
  · rintro ⟨stat, hstat, rfl⟩
    exact ⟨rfl, Stat.complete_eq_ok_iff.mp hstat⟩
  · rintro ⟨hname, hstat⟩
    exact ⟨completed.2, Stat.complete_eq_ok_iff.mpr hstat, Prod.ext hname.symm rfl⟩

theorem mapM_completeEntry_eq_ok_iff :
    entries.mapM (completeEntry sample) = .ok completed ↔
      List.Forall₂ (CompletesEntry sample) entries completed := by
  rw [Traversal.mapM_eq_ok]
  simp only [completeEntry_eq_ok_iff]

theorem names_of_completes (h : List.Forall₂ (CompletesEntry sample) entries completed) :
    completed.map Prod.fst = entries.map Prod.fst := by
  induction h with
  | nil => rfl
  | cons hentry _ ih => rw [List.map_cons, List.map_cons, hentry.name, ih]

theorem completes_again (h : List.Forall₂ (CompletesEntry sample) entries completed) :
    List.Forall₂ (CompletesEntry sample) completed completed := by
  induction h with
  | nil => exact .nil
  | cons hentry _ ih => exact .cons ⟨rfl, hentry.stat.again⟩ ih

end Entries

variable {sample : Item} {rest : List Item} {columns completed : Columns}

theorem complete_eq_ok_iff :
    columns.complete (sample :: rest) = .ok completed ↔ Completes sample columns completed := by
  rw [complete, Traversal.map_eq_ok]
  constructor
  · rintro ⟨entries, hentries, rfl⟩
    rw [mapM_completeEntry_eq_ok_iff] at hentries
    have hdistinct := columns.distinct
    rw [← names_of_completes hentries] at hdistinct
    rw [Completes, ofList_entries hdistinct]
    exact hentries
  · intro h
    exact ⟨completed.entries, mapM_completeEntry_eq_ok_iff.mpr h, ofList_self completed⟩

theorem complete_succeeds_iff :
    (∃ completed, columns.complete (sample :: rest) = .ok completed) ↔
      ∀ entry ∈ columns.entries, entry.2.unsampled sample = false := by
  constructor
  · rintro ⟨completed, h⟩ entry hentry
    cases hfind : columns.entries.find? (Stat.unsampled sample ∘ Prod.snd) with
    | none => exact Bool.eq_false_iff.mpr (List.find?_eq_none.mp hfind entry hentry)
    | some unsampled => cases h.symm.trans (complete_eq_error hfind rest)
  · intro h
    have hfind : columns.entries.find? (Stat.unsampled sample ∘ Prod.snd) = none := by
      rw [List.find?_eq_none]
      intro entry hentry
      exact Bool.eq_false_iff.mp (h entry hentry)
    obtain ⟨completed, hcomplete, -⟩ := complete_eq_ok hfind rest
    exact ⟨completed, hcomplete⟩

theorem complete_eq_error_iff {e : Error} :
    columns.complete (sample :: rest) = .error e ↔
      ∃ entry, columns.entries.find? (Stat.unsampled sample ∘ Prod.snd) = some entry ∧
        e = .unknownField entry.2.field := by
  cases hfind : columns.entries.find? (Stat.unsampled sample ∘ Prod.snd) with
  | none =>
    obtain ⟨completed, hcomplete, -⟩ := complete_eq_ok hfind rest
    simp [hcomplete]
  | some entry => simp [complete_eq_error hfind rest, eq_comm]

theorem complete_eq_emptyInput_iff {items : List Item} :
    columns.complete items = .error .emptyInput ↔ items = [] := by
  cases items with
  | nil => exact ⟨fun _ => rfl, fun _ => rfl⟩
  | cons sample rest =>
    refine ⟨fun h => ?_, nofun⟩
    obtain ⟨entry, -, herror⟩ := complete_eq_error_iff.mp h
    cases herror

/-- Columns are completed by the first item, all of them or none. Without an item there is no
sample, even for no columns. Otherwise the first column whose field the sample lacks, a count apart,
is the error, and without one every column is completed under its own name in its own place. The
same sample finds nothing to add then, whatever items follow it. -/
theorem complete_outcome (columns : Columns) :
    (∀ items, columns.complete items = .error .emptyInput ↔ items = []) ∧
    ∀ (sample : Item) (rest : List Item),
      ((∃ completed, columns.complete (sample :: rest) = .ok completed) ↔
        ∀ entry ∈ columns.entries, entry.2.unsampled sample = false) ∧
      (∀ e, columns.complete (sample :: rest) = .error e ↔
        ∃ entry, columns.entries.find? (Stat.unsampled sample ∘ Prod.snd) = some entry ∧
          e = .unknownField entry.2.field) ∧
      (∀ completed, columns.complete (sample :: rest) = .ok completed ↔
        Completes sample columns completed) ∧
      ∀ completed, columns.complete (sample :: rest) = .ok completed →
        completed.names = columns.names ∧
          ∀ others, completed.complete (sample :: others) = .ok completed := by
  refine ⟨fun _ => complete_eq_emptyInput_iff, fun sample rest => ⟨complete_succeeds_iff,
    fun _ => complete_eq_error_iff, fun _ => complete_eq_ok_iff, ?_⟩⟩
  intro completed h
  rw [complete_eq_ok_iff] at h
  exact ⟨names_of_completes h, fun others => complete_eq_ok_iff.mpr (completes_again h)⟩

theorem complete_outcome_song :
    let columns := ofList [("count:unique|year", ⟨"year", .count, none, true⟩),
      ("max|title", ⟨"title", .max, none, false⟩),
      ("words|title", ⟨"title", .sum, some .words, false⟩),
      ("avg|size", ⟨"size", .avg, none, false⟩)]
    let completed := ofList [("count:unique|year", ⟨"year", .count, none, true⟩),
      ("max|title", ⟨"title", .max, some .len, false⟩),
      ("words|title", ⟨"title", .sum, some .words, false⟩),
      ("avg|size", ⟨"size", .avg, none, false⟩)]
    let song := Item.ofMembers [("title", .string "A Song"), ("size", .number (.int 320))]
    let noise := Item.ofMembers [("size", .string "great")]
    columns.complete [song, noise] = .ok completed ∧ completed.names = columns.names ∧
      completed.complete [song, noise] = .ok completed := by
  intro columns completed song noise
  have hcomplete : columns.complete [song, noise] = .ok completed := by decide +kernel
  obtain ⟨-, -, -, hagain⟩ := (complete_outcome columns).2 song [noise]
  obtain ⟨hnames, hothers⟩ := hagain completed hcomplete
  exact ⟨hcomplete, hnames, hothers [noise]⟩

end Columns

end Rollup
