import Rollup.Proofs.Grouping.FanOut
import Rollup.Proofs.Stat.Evaluation
import Rollup.Proofs.Table.Layout
import Rollup.Summary

namespace Rollup.Summary

variable {completed : Columns}

section Rows

variable {group : Group Item}

theorem row_ok (hne : group.members ≠ [])
    (h : completed.entries.findSome? (Stat.fault? group.members ∘ Prod.snd) = none) :
    ∃ cells, row completed group = .ok cells := by
  have hcells : ∃ cells, completed.entries.mapM (cell group.members) = .ok cells := by
    apply Traversal.mapM_succeeds_iff.mpr
    intro entry hentry
    obtain ⟨value, hvalue⟩ := Stat.evaluate_ok hne (List.findSome?_eq_none_iff.mp h entry hentry)
    exact ⟨(entry.1, value), by rw [cell, hvalue]; rfl⟩
  obtain ⟨cells, hcells⟩ := hcells
  exact ⟨⟨group.key, cells⟩, by rw [row, hcells]; rfl⟩

theorem row_error (hne : group.members ≠ []) {e : Error}
    (h : completed.entries.findSome? (Stat.fault? group.members ∘ Prod.snd) = some e) :
    row completed group = .error e := by
  have hcells : completed.entries.mapM (cell group.members) = .error e := by
    refine Traversal.mapM_first_fault ?_ ?_ h
    · intro entry _ hnone
      obtain ⟨value, hvalue⟩ := Stat.evaluate_ok hne hnone
      exact ⟨(entry.1, value), by rw [cell, hvalue]; rfl⟩
    · intro entry _ e hfault
      rw [cell, Stat.evaluate_error hfault]
      rfl
  rw [row, hcells]
  rfl

theorem row_names {cells : Row} (h : row completed group = .ok cells) :
    cells.values.map Prod.fst = completed.names := by
  obtain ⟨values, hvalues, rfl⟩ := Traversal.map_eq_ok.mp h
  apply Traversal.mapM_keeps hvalues
  intro entry _ pair hpair
  obtain ⟨value, _, rfl⟩ := Traversal.map_eq_ok.mp hpair
  rfl

end Rows

def tabulate (category key : String) (items : List Item) (completed : Columns) :
    Except Error Results :=
  (groupBy category (·.field? category) items).bind fun groups =>
    (groups.mapM (row completed)).map (⟨·, key⟩)

theorem compute_eq (library : Library) (options : Options) :
    compute library options = (Columns.parse options.stats).bind fun columns =>
      (sortKey options columns).bind fun key =>
        (columns.complete (library.matching options.query)).bind
          (tabulate (Text.lowercase options.groupBy) key (library.matching options.query)) := rfl

theorem sortKey_eq_ok {options : Options} {columns : Columns} {key : String} :
    sortKey options columns = .ok key ↔ columns.sortKey? = some key := by
  unfold sortKey
  cases columns.sortKey? <;> simp

section Tabulating

variable {items : List Item} {category key : String} {groups : List (Group Item)}

theorem tabulate_missing {item : Item} (hmem : item ∈ items) (h : item.field? category = none) :
    tabulate category key items completed = .error (.unknownField category) := by
  have hgroups : groupBy category (·.field? category) items = .error (.unknownField category) :=
    Grouping.groupBy_missing hmem h
  rw [tabulate, hgroups]
  rfl

theorem tabulate_ok (hgroups : groupBy category (·.field? category) items = .ok groups)
    (h : ∀ group ∈ groups,
      completed.entries.findSome? (Stat.fault? group.members ∘ Prod.snd) = none) :
    ∃ results, tabulate category key items completed = .ok results ∧ results.sortKey = key ∧
      Table.Full completed.names results.rows := by
  have hrows : ∃ rows, groups.mapM (row completed) = .ok rows := by
    apply Traversal.mapM_succeeds_iff.mpr
    intro group hgroup
    exact row_ok ((Grouping.mem_groupBy hgroups).1 group hgroup) (h group hgroup)
  obtain ⟨rows, hrows⟩ := hrows
  refine ⟨⟨rows, key⟩, ?_, rfl, ?_⟩
  · rw [tabulate, hgroups]
    simp only [Except.bind, hrows, Except.map]
  · intro cells hcells
    obtain ⟨group, _, hrow⟩ := (Traversal.mem_mapM hrows cells).mp hcells
    exact row_names hrow

theorem tabulate_error (hgroups : groupBy category (·.field? category) items = .ok groups)
    {e : Error}
    (h : groups.findSome? (fun group =>
      completed.entries.findSome? (Stat.fault? group.members ∘ Prod.snd)) = some e) :
    tabulate category key items completed = .error e := by
  have hfilled := (Grouping.mem_groupBy hgroups).1
  have hrows : groups.mapM (row completed) = .error e :=
    Traversal.mapM_first_fault (fun group hgroup => row_ok (hfilled group hgroup))
      (fun group hgroup _ => row_error (hfilled group hgroup)) h
  rw [tabulate, hgroups]
  simp only [Except.bind, hrows, Except.map]

/-- No group stops a statistic whose field all items have, unless values of a group cannot be
sorted. -/
theorem faultless_iff (hgroups : groupBy category (·.field? category) items = .ok groups)
    {stat : Stat} :
    (∀ group ∈ groups, stat.fault? group.members = none) ↔
      (stat.readsField = true → ∀ item ∈ items, (item.field? stat.field).isSome) ∧
        ∀ group ∈ groups, stat.unsorted group.members = false := by
  have hmembers := (Grouping.mem_groupBy hgroups).2
  simp only [Stat.fault?_eq_none, Stat.lacking_eq_false]
  constructor
  · intro h
    refine ⟨fun hreads item hitem => ?_, fun group hgroup => (h group hgroup).2⟩
    obtain ⟨group, hgroup, hmember⟩ := (hmembers item).mpr hitem
    exact (h group hgroup).1 hreads item hmember
  · rintro ⟨hcovered, hsorted⟩ group hgroup
    refine ⟨fun hreads item hitem => ?_, hsorted group hgroup⟩
    exact hcovered hreads item ((hmembers item).mp ⟨group, hgroup, hitem⟩)

end Tabulating

end Rollup.Summary
