import Rollup.Proofs.Summary.Meaning
import Rollup.Proofs.Table.Lines

namespace Rollup.Summary

open Text (breaks)

variable {library : Library} {options : Options} {style : Style} {text : String}

theorem full_of_means {pieces : List String} {groups : List (Group Item)} {rows : List Row}
    (h : List.Forall₂ (Means pieces) groups rows) : Table.Full pieces.eraseDups rows := by
  induction h with
  | nil => exact fun row hrow => nomatch hrow
  | cons hrow _ ih => exact List.forall_mem_cons.mpr ⟨hrow.names, ih⟩

theorem rows_ne_nil {results : Results} (h : compute library options = .ok results) :
    results.rows ≠ [] := by
  obtain ⟨hne, -, groups, hgroups, hrows⟩ := means_of_compute h
  obtain ⟨item, hitem⟩ := List.exists_mem_of_ne_nil _ hne
  obtain ⟨group, hgroup, -⟩ := ((Grouping.mem_groupBy hgroups).2 item).mpr hitem
  intro hnil
  rw [hnil, List.forall₂_nil_right_iff] at hrows
  rw [hrows] at hgroup
  cases hgroup

theorem columns_of_full {names : List String} {rows : List Row} (h : Table.Full names rows)
    (hne : rows ≠ []) : Table.columns rows = names := by
  obtain ⟨row, rest, rfl⟩ := List.exists_cons_of_ne_nil hne
  exact h row List.mem_cons_self

theorem sum_breaks_pieces (s : String) : ((Text.pieces ' ' s).map breaks).sum = breaks s := by
  have hcount := Text.count_intercalate '\n' [' '] (List.splitOn_ne_nil ' ' s.toList)
  have hblank : List.count '\n' [' '] = 0 := by decide
  rw [List.intercalate_splitOn, hblank, Nat.mul_zero] at hcount
  rw [Text.pieces, List.map_map]
  simpa [breaks, Function.comp_def] using hcount.symm

theorem breaks_eraseDups_pieces (s : String) :
    ((Text.pieces ' ' s).eraseDups.map breaks).sum = 0 ↔ '\n' ∉ s.toList := by
  rw [← Text.breaks_eq_zero, ← sum_breaks_pieces s]
  simp only [List.sum_eq_zero_iff_forall_eq_nat, List.forall_mem_map, List.mem_eraseDups]

/-- A printed summary has a line for each row below the header and the rule, and one more for every
line break in the category, in a distinct statistic or in a group key. -/
theorem lines_of_build (h : build library options style = .ok text) :
    ∃ results, compute library options = .ok results ∧
      (Text.pieces '\n' text).length = results.rows.length + 2 + (breaks options.groupBy +
        ((Text.pieces ' ' options.stats).eraseDups.map breaks).sum +
        (results.rows.map fun row => breaks row.key.display).sum) ∧
      ((Text.pieces '\n' text).length = results.rows.length + 2 ↔
        '\n' ∉ options.groupBy.toList ∧ '\n' ∉ options.stats.toList ∧
          ∀ row ∈ results.rows, '\n' ∉ row.key.display.toList) := by
  obtain ⟨results, hresults, hrender⟩ := Traversal.bind_eq_ok.mp h
  obtain ⟨sorted, hsorted, hrender⟩ := Traversal.bind_eq_ok.mp hrender
  have hperm := Table.sort_perm hsorted
  obtain ⟨-, -, groups, -, hrows⟩ := means_of_compute hresults
  have hfull : Table.Full (Text.pieces ' ' options.stats).eraseDups sorted := fun row hrow =>
    full_of_means hrows row (hperm.mem_iff.mp hrow)
  have hne : sorted ≠ [] := fun hnil =>
    rows_ne_nil hresults (hnil ▸ hperm.symm).eq_nil
  have hlines := Table.lines_of_render hrender
  rw [Table.header, columns_of_full hfull hne, List.map_cons, List.sum_cons, hperm.length_eq,
    (hperm.map fun row => breaks row.key.display).sum_nat] at hlines
  refine ⟨results, hresults, hlines, ?_⟩
  rw [hlines, Nat.add_eq_left, Nat.add_eq_zero_iff, Nat.add_eq_zero_iff, and_assoc,
    Text.breaks_eq_zero, breaks_eraseDups_pieces, List.sum_eq_zero_iff_forall_eq_nat,
    List.forall_mem_map]
  simp only [Text.breaks_eq_zero]

def song (text : String) : Item :=
  .ofMembers [("genre", .string text)]

theorem lines_of_build_genres :
    ∃ (results : Results) (text : String),
      compute ⟨[song "Rock; Pop", song "Pop"]⟩ .standard = .ok results ∧
      build ⟨[song "Rock; Pop", song "Pop"]⟩ .standard .plain = .ok text ∧
      (Text.pieces '\n' text).length = results.rows.length + 2 ∧
      results.rows.map (·.key) = [.text "Rock", .text "Pop"] := by
  have hbuild : build ⟨[song "Rock; Pop", song "Pop"]⟩ .standard .plain =
      .ok "genre | count\n----- | -----\nPop   | 2    \nRock  | 1    " := by decide +kernel
  have hkeys : ((compute ⟨[song "Rock; Pop", song "Pop"]⟩ .standard).map
      (·.rows.map (·.key))) = .ok [.text "Rock", .text "Pop"] := by decide +kernel
  obtain ⟨results, hresults, -, hlines⟩ := lines_of_build hbuild
  rw [hresults] at hkeys
  have hrows := Except.ok.inj hkeys
  refine ⟨results, _, hresults, hbuild, hlines.mpr ⟨by decide, by decide, ?_⟩, hrows⟩
  intro row hrow
  have hkey : row.key ∈ [Scalar.text "Rock", .text "Pop"] := hrows ▸ List.mem_map_of_mem hrow
  obtain h | h : row.key = .text "Rock" ∨ row.key = .text "Pop" := by simpa using hkey
  · rw [h]
    decide
  · rw [h]
    decide

/-- A genre with a line break in it takes two lines of the table. -/
theorem broken_key_adds_line :
    (compute ⟨[song "a\nb"]⟩ .standard).map (·.rows.length) = .ok 1 ∧
      build ⟨[song "a\nb"]⟩ .standard .plain =
        .ok "genre | count\n----- | -----\na\nb   | 1    " ∧
      (Text.pieces '\n' "genre | count\n----- | -----\na\nb   | 1    ").length = 4 := by
  refine ⟨?_, ?_, ?_⟩
  · decide +kernel
  · decide +kernel
  · decide +kernel

end Rollup.Summary
