import Rollup.Proofs.Query.Conjunction
import Rollup.Proofs.Stat.Completion
import Rollup.Proofs.Stat.Grammar
import Rollup.Proofs.Summary.Tabulation

namespace Rollup

namespace Summary

/-- Every piece is a statistic, some item is selected, the selected items have the category and
every field that a statistic reads, and no group has values that cannot be sorted. -/
structure Accepted (pieces : List String) (items : List Item) (category : String) : Prop where
  parsed : ∀ piece ∈ pieces, ∃ stat, Stat.parse piece = .ok stat
  selected : items ≠ []
  grouped : ∀ item ∈ items, (item.field? category).isSome
  covered : ∀ piece ∈ pieces, ∀ stat, Stat.parse piece = .ok stat → stat.readsField = true →
    ∀ item ∈ items, (item.field? stat.field).isSome
  sorted : ∀ piece ∈ pieces, ∀ stat, Stat.parse piece = .ok stat →
    ∀ groups, groupBy category (·.field? category) items = .ok groups →
      ∀ group ∈ groups, stat.unsorted group.members = false

/-- The error of the first stage that fails: the first piece that is no statistic, then an empty
selection, the first statistic that the first item stops, a missing category, and the first fault
of a statistic in the first group with a fault. -/
inductive Refused (pieces : List String) (items : List Item) (category : String) : Error → Prop
  | malformed {piece : String} {fault : StatFault}
      (hfind : pieces.find? (fun piece => !(Stat.parse piece).isOk) = some piece)
      (hparse : Stat.parse piece = .error (.malformedStat piece fault)) :
      Refused pieces items category (.malformedStat piece fault)
  | empty {stats : List Stat} (hstats : pieces.mapM Stat.parse = .ok stats) (hitems : items = []) :
      Refused pieces items category .emptyInput
  | sample {stats : List Stat} {sample : Item} {rest : List Item} {stat : Stat}
      (hstats : pieces.mapM Stat.parse = .ok stats) (hitems : items = sample :: rest)
      (hfind : stats.find? (Stat.unsampled sample) = some stat) :
      Refused pieces items category (.unknownField stat.field)
  | category {stats : List Stat} {sample item : Item} {rest : List Item}
      (hstats : pieces.mapM Stat.parse = .ok stats) (hitems : items = sample :: rest)
      (hsampled : stats.find? (Stat.unsampled sample) = none) (hmem : item ∈ items)
      (hlacks : item.field? category = none) :
      Refused pieces items category (.unknownField category)
  | group {stats : List Stat} {sample : Item} {rest : List Item} {groups : List (Group Item)}
      {e : Error}
      (hstats : pieces.mapM Stat.parse = .ok stats) (hitems : items = sample :: rest)
      (hsampled : stats.find? (Stat.unsampled sample) = none)
      (hgroups : groupBy category (·.field? category) items = .ok groups)
      (hfault : groups.findSome? (fun group => stats.findSome? (Stat.fault? group.members)) =
        some e) :
      Refused pieces items category e

section Stages

variable {library : Library} {options : Options} {stats : List Stat} {sample : Item}
  {rest : List Item}

theorem compute_parsed (library : Library)
    (hstats : (Text.pieces ' ' options.stats).mapM Stat.parse = .ok stats) :
    ∃ (columns : Columns) (key : String),
      columns.entries = ((Text.pieces ' ' options.stats).zip stats).eraseDups ∧
      key ∈ columns.names ∧
      compute library options = (columns.complete (library.matching options.query)).bind
        (tabulate (Text.lowercase options.groupBy) key (library.matching options.query)) := by
  obtain ⟨columns, hcolumns, hentries⟩ := Columns.parse_eq_ok hstats
  obtain ⟨key, -, hkey⟩ := Columns.sortKey?_eq hcolumns
  refine ⟨columns, key, hentries, List.mem_of_head? hkey, ?_⟩
  rw [compute_eq, hcolumns]
  simp only [Except.bind, sortKey_eq_ok.mpr hkey]

theorem compute_sampled (hstats : (Text.pieces ' ' options.stats).mapM Stat.parse = .ok stats)
    (hitems : library.matching options.query = sample :: rest)
    (hsampled : stats.find? (Stat.unsampled sample) = none) :
    ∃ (completed : Columns) (key : String), key ∈ completed.names ∧
      (∀ members, completed.entries.findSome? (Stat.fault? members ∘ Prod.snd) =
        stats.findSome? (Stat.fault? members)) ∧
      compute library options = tabulate (Text.lowercase options.groupBy) key
        (library.matching options.query) completed := by
  obtain ⟨columns, key, hentries, hkey, hcompute⟩ := compute_parsed library hstats
  have hnone : columns.entries.find? (Stat.unsampled sample ∘ Prod.snd) = none := by
    rw [← Option.map_eq_none_iff, Columns.find?_entries hstats hentries, hsampled]
  obtain ⟨completed, hcomplete, hcompleted⟩ := Columns.complete_eq_ok hnone rest
  refine ⟨completed, key, ?_, ?_, ?_⟩
  · rw [Columns.names, hcompleted, List.map_map]
    exact hkey
  · intro members
    rw [hcompleted, List.findSome?_map, ← Columns.findSome?_entries hstats hentries]
    rfl
  · rw [hcompute, hitems, hcomplete]
    rfl

theorem mem_stats {pieces : List String} (hstats : pieces.mapM Stat.parse = .ok stats)
    {P : Stat → Prop} :
    (∀ stat ∈ stats, P stat) ↔ ∀ piece ∈ pieces, ∀ stat, Stat.parse piece = .ok stat → P stat := by
  simp only [Traversal.mem_mapM hstats]
  exact ⟨fun h piece hpiece stat hparse => h stat ⟨piece, hpiece, hparse⟩,
    fun h stat ⟨piece, hpiece, hparse⟩ => h piece hpiece stat hparse⟩

theorem compute_accepted (h : Accepted (Text.pieces ' ' options.stats)
      (library.matching options.query) (Text.lowercase options.groupBy)) :
    ∃ results names, compute library options = .ok results ∧ results.sortKey ∈ names ∧
      Table.Full names results.rows := by
  obtain ⟨stats, hstats⟩ := Traversal.mapM_succeeds_iff.mpr h.parsed
  obtain ⟨sample, rest, hitems⟩ := List.exists_cons_of_ne_nil h.selected
  have hcovered := (mem_stats hstats).mpr h.covered
  have hsorted := (mem_stats hstats).mpr h.sorted
  have hsampled : stats.find? (Stat.unsampled sample) = none := by
    rw [List.find?_eq_none]
    intro stat hstat hunsampled
    rw [Stat.unsampled, Bool.and_eq_true] at hunsampled
    have hreads : stat.readsField = true := by rw [Stat.readsField, hunsampled.1, Bool.true_or]
    have hvalue := hcovered stat hstat hreads sample (hitems ▸ List.mem_cons_self)
    rw [Option.isNone_iff_eq_none.mp hunsampled.2] at hvalue
    cases hvalue
  obtain ⟨completed, key, hkey, hfaults, hcompute⟩ := compute_sampled hstats hitems hsampled
  obtain ⟨entries, hentries⟩ := Grouping.exists_streams h.grouped
  have hgroups := Grouping.groupBy_streams hentries
  have hnone : ∀ group ∈ Grouping.gather entries,
      completed.entries.findSome? (Stat.fault? group.members ∘ Prod.snd) = none := by
    intro group hgroup
    rw [hfaults, List.findSome?_eq_none_iff]
    intro stat hstat
    exact (faultless_iff hgroups).mpr ⟨hcovered stat hstat, hsorted stat hstat _ hgroups⟩ group
      hgroup
  obtain ⟨results, hresults, hsort, hfull⟩ := tabulate_ok hgroups hnone
  exact ⟨results, completed.names, hcompute.trans hresults, hsort ▸ hkey, hfull⟩

theorem compute_refused {e : Error} (h : Refused (Text.pieces ' ' options.stats)
      (library.matching options.query) (Text.lowercase options.groupBy) e) :
    compute library options = .error e := by
  cases h with
  | malformed hfind hparse =>
    rw [compute, Columns.parse_eq_error hfind hparse]
    rfl
  | empty hstats hitems =>
    obtain ⟨columns, key, _, _, hcompute⟩ := compute_parsed library hstats
    rw [hcompute, hitems]
    rfl
  | @sample stats sample rest stat hstats hitems hfind =>
    obtain ⟨columns, key, hentries, _, hcompute⟩ := compute_parsed library hstats
    have hcolumn := Columns.find?_entries hstats hentries (Stat.unsampled sample)
    rw [hfind] at hcolumn
    obtain ⟨entry, hentry, rfl⟩ := Option.map_eq_some_iff.mp hcolumn
    rw [hcompute, hitems, Columns.complete_eq_error hentry rest]
    rfl
  | category hstats hitems hsampled hmem hlacks =>
    obtain ⟨completed, key, _, _, hcompute⟩ := compute_sampled hstats hitems hsampled
    rw [hcompute]
    exact tabulate_missing hmem hlacks
  | group hstats hitems hsampled hgroups hfault =>
    obtain ⟨completed, key, _, hfaults, hcompute⟩ := compute_sampled hstats hitems hsampled
    simp only [← hfaults] at hfault
    rw [hcompute]
    exact tabulate_error hgroups hfault

end Stages

theorem exists_malformed {pieces : List String} {e : Error}
    (h : pieces.mapM Stat.parse = .error e) : ∃ piece fault,
      pieces.find? (fun piece => !(Stat.parse piece).isOk) = some piece ∧
        Stat.parse piece = .error (.malformedStat piece fault) := by
  obtain ⟨other, hother, hfails⟩ := Traversal.error_of_mapM h
  have hsome : (pieces.find? fun piece => !(Stat.parse piece).isOk).isSome := by
    rw [List.find?_isSome]
    exact ⟨other, hother, by rw [hfails]; rfl⟩
  obtain ⟨piece, hpiece⟩ := Option.isSome_iff_exists.mp hsome
  cases hparse : Stat.parse piece with
  | ok stat =>
    have hnot := List.find?_some hpiece
    rw [hparse] at hnot
    cases hnot
  | error e =>
    obtain ⟨fault, rfl⟩ := Stat.parse_error hparse
    exact ⟨piece, fault, hpiece, hparse⟩

theorem accepted_or_refused (pieces : List String) (items : List Item) (category : String) :
    Accepted pieces items category ∨ ∃ e, Refused pieces items category e := by
  cases hstats : pieces.mapM Stat.parse with
  | error e =>
    obtain ⟨piece, fault, hfind, hparse⟩ := exists_malformed hstats
    exact .inr ⟨_, .malformed hfind hparse⟩
  | ok stats =>
    cases items with
    | nil => exact .inr ⟨_, .empty hstats rfl⟩
    | cons sample rest =>
      cases hsampled : stats.find? (Stat.unsampled sample) with
      | some stat => exact .inr ⟨_, .sample hstats rfl hsampled⟩
      | none =>
        by_cases hcategory : ∀ item ∈ sample :: rest, (item.field? category).isSome
        · obtain ⟨entries, hentries⟩ := Grouping.exists_streams hcategory
          have hgroups := Grouping.groupBy_streams hentries
          cases hfault : (Grouping.gather entries).findSome?
              (fun group => stats.findSome? (Stat.fault? group.members)) with
          | some e => exact .inr ⟨e, .group hstats rfl hsampled hgroups hfault⟩
          | none =>
            simp only [List.findSome?_eq_none_iff] at hfault
            have hfaultless (stat : Stat) (hstat : stat ∈ stats) :=
              (faultless_iff hgroups).mp fun group hgroup => hfault group hgroup stat hstat
            refine .inl ⟨Traversal.mapM_succeeds_iff.mp ⟨stats, hstats⟩, List.cons_ne_nil _ _,
              hcategory, (mem_stats hstats).mp fun stat hstat => (hfaultless stat hstat).1,
              (mem_stats hstats).mp fun stat hstat groups hgroups' => ?_⟩
            cases hgroups.symm.trans hgroups'
            exact (hfaultless stat hstat).2
        · simp only [not_forall, Option.not_isSome_iff_eq_none] at hcategory
          obtain ⟨item, hitem, hnone⟩ := hcategory
          exact .inr ⟨_, .category hstats rfl hsampled hitem hnone⟩

theorem compute_eq_ok_iff {library : Library} {options : Options} :
    (∃ results, compute library options = .ok results) ↔
      Accepted (Text.pieces ' ' options.stats) (library.matching options.query)
        (Text.lowercase options.groupBy) := by
  constructor
  · rintro ⟨results, hresults⟩
    obtain haccepted | ⟨e, hrefused⟩ := accepted_or_refused (Text.pieces ' ' options.stats)
      (library.matching options.query) (Text.lowercase options.groupBy)
    · exact haccepted
    · cases hresults.symm.trans (compute_refused hrefused)
  · intro h
    obtain ⟨results, _, hresults, _⟩ := compute_accepted h
    exact ⟨results, hresults⟩

theorem compute_eq_error_iff {library : Library} {options : Options} {e : Error} :
    compute library options = .error e ↔
      Refused (Text.pieces ' ' options.stats) (library.matching options.query)
        (Text.lowercase options.groupBy) e := by
  refine ⟨fun herror => ?_, compute_refused⟩
  obtain haccepted | ⟨e', hrefused⟩ := accepted_or_refused (Text.pieces ' ' options.stats)
    (library.matching options.query) (Text.lowercase options.groupBy)
  · obtain ⟨results, _, hresults, _⟩ := compute_accepted haccepted
    cases hresults.symm.trans herror
  · cases (compute_refused hrefused).symm.trans herror
    exact hrefused

/-- The errors that a refusal can have. Only in a group of many items, among whose values three
straddle, can the values be found to be in no order. -/
theorem Refused.errors {pieces : List String} {items : List Item} {category : String} {e : Error}
    (h : Refused pieces items category e) :
    (∃ piece fault, e = .malformedStat piece fault ∧ Stat.parse piece = .error e) ∨
      e = .emptyInput ∨ (∃ field, e = .unknownField field) ∨
      e = .unordered ∧ ∃ groups, groupBy category (·.field? category) items = .ok groups ∧
        ∃ group ∈ groups, ∃ piece ∈ pieces, ∃ stat, Stat.parse piece = .ok stat ∧
          stat.distinct = true ∧ Scalar.Tangled (group.members.filterMap (·.field? stat.field)) := by
  cases h with
  | malformed _ hparse => exact .inl ⟨_, _, rfl, hparse⟩
  | empty => exact .inr (.inl rfl)
  | sample | category => exact .inr (.inr (.inl ⟨_, rfl⟩))
  | @group stats sample rest groups e hstats _ _ hgroups hfault =>
    obtain ⟨group, hgroup, hfault⟩ := List.exists_of_findSome?_eq_some hfault
    obtain ⟨stat, hstat, hfault⟩ := List.exists_of_findSome?_eq_some hfault
    obtain ⟨piece, hpiece, hparse⟩ := (Traversal.mem_mapM hstats stat).mp hstat
    obtain ⟨-, rfl⟩ | ⟨-, hunsorted, rfl⟩ := Stat.fault?_eq_some.mp hfault
    · exact .inr (.inr (.inl ⟨_, rfl⟩))
    · exact .inr (.inr (.inr ⟨rfl, groups, hgroups, group, hgroup, piece, hpiece, stat, hparse,
        Stat.tangled_of_unsorted hunsorted⟩))

/-- A run has results exactly when it is accepted, and ends in the error of its refusal otherwise.
Its results can be laid out in every way, unless a cell is beyond what a layout can hold. It takes
more than twenty values, three of which straddle, to make a group or the rows impossible to sort. -/
theorem compute_outcome (library : Library) (options : Options) :
    let pieces := Text.pieces ' ' options.stats
    let items := library.items.filter (Query.parse options.query).selects
    let category := Text.lowercase options.groupBy
    ((∃ results, compute library options = .ok results) ↔ Accepted pieces items category) ∧
      (∀ e, compute library options = .error e ↔ Refused pieces items category e) ∧
      (∀ stat, compute library options ≠ .error (.emptyCollection stat)) ∧
      (∀ key, compute library options ≠ .error (.missingKey key)) ∧
      (compute library options = .error .unordered →
        ∃ groups, groupBy category (·.field? category) items = .ok groups ∧
          ∃ group ∈ groups, ∃ piece ∈ pieces, ∃ stat, Stat.parse piece = .ok stat ∧
            stat.distinct = true ∧
              Scalar.Tangled (group.members.filterMap (·.field? stat.field))) ∧
      ∀ results, compute library options = .ok results → ∀ label descending style,
        (∃ text, Table.renderSorted label results.sortKey descending style results.rows =
          .ok text) ∨
        Table.renderSorted label results.sortKey descending style results.rows =
            .error .layoutLimit ∧
          Table.Oversized label style results.rows ∨
        Table.renderSorted label results.sortKey descending style results.rows =
            .error .unordered ∧
          Scalar.Tangled ((results.rows.filterMap (·.get? results.sortKey)).map .number) := by
  intro pieces items category
  have hitems : items = library.matching options.query :=
    (library.matching_eq_filter options.query).symm
  rw [hitems]
  have hrefused {e : Error} (h : compute library options = .error e) :=
    (compute_eq_error_iff.mp h).errors
  refine ⟨compute_eq_ok_iff, fun e => compute_eq_error_iff, ?_, ?_, ?_, ?_⟩
  · intro stat herror
    simpa using hrefused herror
  · intro key herror
    simpa using hrefused herror
  · intro herror
    simpa using hrefused herror
  · intro results hresults label descending style
    obtain ⟨results', names, hresults', hkey, hfull⟩ :=
      compute_accepted (compute_eq_ok_iff.mp ⟨results, hresults⟩)
    cases hresults.symm.trans hresults'
    exact Table.renderSorted_ok_or label descending style hfull hkey

def gains : List Number :=
  .int 9007199254740993 :: .int 9007199254740992 ::
    List.replicate 8 (.int 9007199254740993) ++
      .real (.ofInt 9007199254740992) :: List.replicate 10 (.int 9007199254740992)

def gained (gain : Number) : Item :=
  .ofMembers [("genre", .string "x"), ("gain", .number gain)]

/-- A distinct count over a field that all selected items have may still have no result. -/
theorem gains_unordered :
    let library : Library := ⟨gains.map gained⟩
    let options : Options := ⟨"", "genre", "count:unique|gain", true⟩
    let items := library.items.filter (Query.parse options.query).selects
    (Text.pieces ' ' options.stats).mapM Stat.parse = .ok [⟨"gain", .count, none, true⟩] ∧
    items ≠ [] ∧
    (∀ item ∈ items, (item.field? (Text.lowercase options.groupBy)).isSome) ∧
    (∀ item ∈ items, (item.field? "gain").isSome) ∧
    compute library options = .error .unordered := by
  refine ⟨by decide +kernel, by decide +kernel, by decide +kernel, by decide +kernel, ?_⟩
  have hrun : (compute ⟨gains.map gained⟩ ⟨"", "genre", "count:unique|gain", true⟩).map
      (·.sortKey) = .error .unordered := by
    decide +kernel
  exact Traversal.map_eq_error.mp hrun

end Summary

end Rollup
