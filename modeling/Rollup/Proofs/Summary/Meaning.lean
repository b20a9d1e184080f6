import Rollup.Proofs.Summary.Outcome

namespace Rollup.Summary

/-- A row with the key of its group and a column for each distinct piece, under which stands the
value over the group of the statistic that the piece is read as. -/
structure Means (pieces : List String) (group : Group Item) (row : Row) : Prop where
  key : row.key = group.key
  names : row.values.map Prod.fst = pieces.eraseDups
  value : ∀ entry ∈ row.values, ∃ stat, Stat.parse entry.1 = .ok stat ∧
    stat.evaluate group.members = .ok entry.2

section Rows

variable {pieces : List String} {group : Group Item}

theorem entries_ext {entries entries' : List (String × Number)}
    (hnames : entries.map Prod.fst = entries'.map Prod.fst)
    (h : ∀ a ∈ entries, ∀ b ∈ entries', a.1 = b.1 → a.2 = b.2) : entries = entries' := by
  induction entries generalizing entries' with
  | nil => exact (List.map_eq_nil_iff.mp hnames.symm).symm
  | cons a entries ih =>
    cases entries' with
    | nil => cases hnames
    | cons b entries' =>
      obtain ⟨hname, hrest⟩ := List.cons.inj hnames
      have hhead : a = b := Prod.ext hname (h a (by simp) b (by simp) hname)
      have htail := ih hrest fun a' ha' b' hb' =>
        h a' (List.mem_cons_of_mem _ ha') b' (List.mem_cons_of_mem _ hb')
      rw [hhead, htail]

theorem Means.unique {row row' : Row} (h : Means pieces group row) (h' : Means pieces group row') :
    row = row' := by
  have hvalues : row.values = row'.values := by
    apply entries_ext (h.names.trans h'.names.symm)
    intro a ha b hb hname
    obtain ⟨stat, hparse, hvalue⟩ := h.value a ha
    obtain ⟨stat', hparse', hvalue'⟩ := h'.value b hb
    rw [hname, hparse', Except.ok.injEq] at hparse
    rw [hparse, hvalue, Except.ok.injEq] at hvalue'
    exact hvalue'
  cases row
  cases row'
  rw [Row.mk.injEq]
  exact ⟨h.key.trans h'.key.symm, hvalues⟩

theorem Means.faultless {row : Row} (h : Means pieces group row) {piece : String}
    (hpiece : piece ∈ pieces) : ∃ stat, Stat.parse piece = .ok stat ∧
      stat.fault? group.members = none := by
  rw [← List.mem_eraseDups, ← h.names] at hpiece
  obtain ⟨entry, hentry, rfl⟩ := List.mem_map.mp hpiece
  obtain ⟨stat, hparse, hvalue⟩ := h.value entry hentry
  refine ⟨stat, hparse, Option.eq_none_iff_forall_ne_some.mpr fun e hfault => ?_⟩
  rw [Stat.evaluate_error hfault] at hvalue
  cases hvalue

theorem row_complete {columns completed : Columns} {items : List Item}
    (h : columns.complete items = .ok completed) (group : Group Item) :
    row completed group = row columns group := by
  obtain ⟨sample, -, hentries⟩ := Columns.complete_entries h
  have hcell : cell group.members ∘ (fun entry => (entry.1, entry.2.settle sample)) =
      cell group.members := by
    funext entry
    simp only [Function.comp_apply, cell, Stat.evaluate_settle]
  rw [row, row, hentries, List.mapM_map, hcell]

theorem means_of_row {text : String} {columns : Columns} (hcolumns : Columns.parse text = .ok columns)
    {cells : Row} (h : row columns group = .ok cells) : Means (Text.pieces ' ' text) group cells := by
  obtain ⟨hnames, hreads⟩ := Columns.parse_entries hcolumns
  refine ⟨?_, (row_names h).trans hnames, ?_⟩
  · obtain ⟨values, -, rfl⟩ := Traversal.map_eq_ok.mp h
    rfl
  · obtain ⟨values, hvalues, rfl⟩ := Traversal.map_eq_ok.mp h
    intro entry hentry
    obtain ⟨column, hcolumn, hcell⟩ := (Traversal.mem_mapM hvalues entry).mp hentry
    obtain ⟨value, hvalue, rfl⟩ := Traversal.map_eq_ok.mp hcell
    exact ⟨column.2, hreads column hcolumn, hvalue⟩

end Rows

variable {library : Library} {options : Options} {results : Results}

theorem compute_stages (h : compute library options = .ok results) :
    ∃ columns completed groups, Columns.parse options.stats = .ok columns ∧
      columns.sortKey? = some results.sortKey ∧
      columns.complete (library.matching options.query) = .ok completed ∧
      groupBy (Text.lowercase options.groupBy) (·.field? (Text.lowercase options.groupBy))
        (library.matching options.query) = .ok groups ∧
      groups.mapM (row completed) = .ok results.rows := by
  rw [compute_eq, Traversal.bind_eq_ok] at h
  obtain ⟨columns, hcolumns, h⟩ := h
  obtain ⟨key, hkey, h⟩ := Traversal.bind_eq_ok.mp h
  obtain ⟨completed, hcompleted, h⟩ := Traversal.bind_eq_ok.mp h
  obtain ⟨groups, hgroups, h⟩ := Traversal.bind_eq_ok.mp h
  obtain ⟨rows, hrows, rfl⟩ := Traversal.map_eq_ok.mp h
  exact ⟨columns, completed, groups, hcolumns, sortKey_eq_ok.mp hkey, hcompleted, hgroups, hrows⟩

theorem sortKey_of_parse {text key : String} {columns : Columns}
    (hcolumns : Columns.parse text = .ok columns) (hkey : columns.sortKey? = some key) :
    (Text.pieces ' ' text).head? = some key := by
  rw [Columns.sortKey?, (Columns.parse_entries hcolumns).1] at hkey
  cases hpieces : Text.pieces ' ' text with
  | nil =>
    rw [hpieces] at hkey
    cases hkey
  | cons piece pieces =>
    rw [hpieces, List.eraseDups_cons, List.head?_cons] at hkey
    exact hkey

theorem accepted_of_means {pieces : List String} {items : List Item} {category : String}
    {groups : List (Group Item)} {rows : List Row} (hne : items ≠ [])
    (hgroups : groupBy category (·.field? category) items = .ok groups)
    (hrows : List.Forall₂ (Means pieces) groups rows) : Accepted pieces items category := by
  have hmeans : ∀ group ∈ groups, ∃ row, Means pieces group row :=
    ((List.forall₂_and_left groups rows).mp (hrows.imp fun _ row hrow => ⟨⟨row, hrow⟩, hrow⟩)).1
  have hfaultless : ∀ piece ∈ pieces, ∀ stat, Stat.parse piece = .ok stat →
      ∀ group ∈ groups, stat.fault? group.members = none := by
    intro piece hpiece stat hparse group hgroup
    obtain ⟨row, hrow⟩ := hmeans group hgroup
    obtain ⟨stat', hparse', hfault⟩ := hrow.faultless hpiece
    cases hparse.symm.trans hparse'
    exact hfault
  refine ⟨fun piece hpiece => ?_, hne, fun item hitem => ?_, ?_, ?_⟩
  · obtain ⟨item, hitem⟩ := List.exists_mem_of_ne_nil items hne
    obtain ⟨group, hgroup, -⟩ := ((Grouping.mem_groupBy hgroups).2 item).mpr hitem
    obtain ⟨row, hrow⟩ := hmeans group hgroup
    obtain ⟨stat, hparse, -⟩ := hrow.faultless hpiece
    exact ⟨stat, hparse⟩
  · rw [Option.isSome_iff_ne_none]
    intro hnone
    cases hgroups.symm.trans (Grouping.groupBy_missing hitem hnone)
  · intro piece hpiece stat hparse
    exact ((faultless_iff hgroups).mp (hfaultless piece hpiece stat hparse)).1
  · intro piece hpiece stat hparse groups' hgroups'
    cases hgroups.symm.trans hgroups'
    exact ((faultless_iff hgroups).mp (hfaultless piece hpiece stat hparse)).2

theorem means_of_compute (h : compute library options = .ok results) :
    library.matching options.query ≠ [] ∧
      (Text.pieces ' ' options.stats).head? = some results.sortKey ∧
      ∃ groups, groupBy (Text.lowercase options.groupBy)
          (·.field? (Text.lowercase options.groupBy)) (library.matching options.query) =
          .ok groups ∧
        List.Forall₂ (Means (Text.pieces ' ' options.stats)) groups results.rows := by
  have haccepted := compute_eq_ok_iff.mp ⟨results, h⟩
  obtain ⟨columns, completed, groups, hcolumns, hkey, hcompleted, hgroups, hrows⟩ :=
    compute_stages h
  refine ⟨haccepted.selected, sortKey_of_parse hcolumns hkey, groups, hgroups, ?_⟩
  apply (Traversal.mapM_eq_ok.mp hrows).imp
  intro group cells hcells
  rw [row_complete hcompleted] at hcells
  exact means_of_row hcolumns hcells

/-- A run has results exactly when some item is selected and the rows tell, for each group of the
selected items and under each distinct piece, the value of the statistic that the piece is read as.
The rows stand in the order of the groups, and the first piece is the column to sort by. -/
theorem compute_eq_ok_iff_means (library : Library) (options : Options) (results : Results) :
    let pieces := Text.pieces ' ' options.stats
    let items := library.items.filter (Query.parse options.query).selects
    let category := Text.lowercase options.groupBy
    compute library options = .ok results ↔
      items ≠ [] ∧ pieces.head? = some results.sortKey ∧
      ∃ groups, groupBy category (·.field? category) items = .ok groups ∧
        List.Forall₂ (Means pieces) groups results.rows := by
  intro pieces items category
  have hitems : items = library.matching options.query :=
    (library.matching_eq_filter options.query).symm
  rw [hitems]
  refine ⟨means_of_compute, ?_⟩
  rintro ⟨hne, hkey, groups, hgroups, hrows⟩
  -- The rows show that the run has results. These mean the same, so they are the same.
  obtain ⟨results', hresults'⟩ := compute_eq_ok_iff.mpr (accepted_of_means hne hgroups hrows)
  obtain ⟨-, hkey', groups', hgroups', hrows'⟩ := means_of_compute hresults'
  cases hgroups.symm.trans hgroups'
  have hsame : results.sortKey = results'.sortKey := Option.some.inj (hkey.symm.trans hkey')
  have hunique : Relator.RightUnique (Means pieces) := fun _ _ _ h h' => h.unique h'
  have hrow : results.rows = results'.rows := List.right_unique_forall₂' hunique hrows hrows'
  cases results
  cases results'
  rw [hresults', Except.ok.injEq, Results.mk.injEq]
  exact ⟨hrow.symm, hsame.symm⟩

end Rollup.Summary
