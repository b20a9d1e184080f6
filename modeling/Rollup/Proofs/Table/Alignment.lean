import Mathlib.Algebra.BigOperators.Group.List.Basic
import Mathlib.Algebra.Ring.Nat
import Mathlib.Order.Bounds.Basic
import Rollup.Proofs.Table.Layout

namespace Rollup

theorem Row.value_eq_ok {row : Row} {name : String} {value : Number} :
    row.value name = .ok value ↔ row.get? name = some value := by
  rw [Row.value]
  cases row.get? name <;> simp

namespace Table

def lengths (grid : List (List String)) (i : Nat) : Set Nat :=
  {n | ∃ cells ∈ grid, ∃ cell, cells[i]? = some cell ∧ cell.length = n}

def offset (widths : List Nat) (i : Nat) : Nat := ((widths.take i).map (· + 3)).sum

/-- A line in which every cell starts at the place of its column and is filled up with blanks to the
width of the column, with a bar between two columns and nothing behind the last one. -/
structure Aligned (widths : List Nat) (cells : List String) (line : String) : Prop where
  columns : cells.length = widths.length
  length : line.length = widths.sum + 3 * (widths.length - 1)
  cell : ∀ i width cell, widths[i]? = some width → cells[i]? = some cell →
    (line.toList.drop (offset widths i)).take width =
      cell.toList ++ List.replicate (width - cell.length) ' '
  bar : ∀ i width, widths[i]? = some width → i + 1 < widths.length →
    (line.toList.drop (offset widths i + width)).take 3 = [' ', '|', ' ']

def Filled (style : Style) (names : List String) (row : Row) (cells : List String) : Prop :=
  ∃ texts, cells = row.key.display :: texts ∧
    List.Forall₂ (fun name text => ∃ value, row.get? name = some value ∧
      style.cell name value = .ok text) names texts

section Lines

variable {ws : List Nat} {cells : List String} {width : Nat} {cell text : String}

theorem offset_zero (ws : List Nat) : offset ws 0 = 0 := rfl

theorem offset_succ (width : Nat) (ws : List Nat) (i : Nat) :
    offset (width :: ws) (i + 1) = width + 3 + offset ws i := by
  simp [offset]

theorem toList_padTo (width : Nat) (cell : String) :
    (padTo width cell).toList = cell.toList ++ List.replicate (width - cell.length) ' ' := by
  simp [padTo]

theorem length_padTo (h : cell.length ≤ width) : (padTo width cell).toList.length = width := by
  rw [toList_padTo, List.length_append, List.length_replicate, String.length_toList]
  omega

theorem fits_of_take {cs : List Char}
    (h : cs.take width = cell.toList ++ List.replicate (width - cell.length) ' ') :
    cell.length ≤ width := by
  have hlength := congrArg List.length h
  rw [List.length_take, List.length_append, List.length_replicate, String.length_toList] at hlength
  omega

theorem aligned_nil : Aligned [] [] text ↔ text = "" := by
  constructor
  · intro h
    have hlength := h.length
    simpa using hlength
  · rintro rfl
    exact ⟨rfl, rfl, by simp, by simp⟩

theorem aligned_singleton :
    Aligned [width] [cell] text ↔ cell.length ≤ width ∧ text = padTo width cell := by
  constructor
  · intro h
    have hcell := h.cell 0 width cell rfl rfl
    have hlength : text.toList.length = width := by simpa [String.length_toList] using h.length
    refine ⟨fits_of_take hcell, ?_⟩
    rw [offset_zero, List.drop_zero, ← hlength, List.take_length, hlength] at hcell
    rw [← String.toList_inj, toList_padTo, hcell]
  · rintro ⟨hfit, rfl⟩
    refine ⟨rfl, by simp [← String.length_toList, length_padTo hfit], ?_, by simp⟩
    intro i w c hw hc
    cases i with
    | zero =>
      cases hw
      cases hc
      rw [offset_zero, List.drop_zero, List.take_of_length_le (length_padTo hfit).le, toList_padTo]
    | succ i => cases hw

theorem Aligned.cons {rest : String} (hne : ws ≠ []) (hfit : cell.length ≤ width)
    (h : Aligned ws cells rest) :
    Aligned (width :: ws) (cell :: cells) (padTo width cell ++ " | " ++ rest) := by
  have hpositive : 0 < ws.length := List.length_pos_of_ne_nil hne
  have hlength := length_padTo hfit
  have hchars : (padTo width cell ++ " | " ++ rest).toList =
      (padTo width cell).toList ++ ([' ', '|', ' '] ++ rest.toList) := by simp
  have hdrop (n : Nat) : (padTo width cell ++ " | " ++ rest).toList.drop (width + 3 + n) =
      rest.toList.drop n := by
    rw [hchars, Nat.add_assoc, ← List.drop_drop, List.drop_left' hlength, ← List.drop_drop]
    rfl
  refine ⟨by simp [h.columns], ?_, ?_, ?_⟩
  · rw [← String.length_toList, hchars]
    simp only [List.length_append, hlength, String.length_toList, h.length, List.sum_cons,
      List.length_cons, List.length_nil]
    omega
  · intro i w c hw hc
    cases i with
    | zero =>
      cases hw
      cases hc
      rw [offset_zero, List.drop_zero, hchars, List.take_left' hlength, toList_padTo]
    | succ i =>
      rw [offset_succ, hdrop]
      exact h.cell i w c hw hc
  · intro i w hw hi
    cases i with
    | zero =>
      cases hw
      rw [offset_zero, Nat.zero_add, hchars, List.drop_left' hlength]
      rfl
    | succ i =>
      rw [offset_succ, Nat.add_assoc, hdrop]
      exact h.bar i w hw (Nat.lt_of_succ_lt_succ hi)

theorem Aligned.uncons (hne : ws ≠ []) (h : Aligned (width :: ws) (cell :: cells) text) :
    cell.length ≤ width ∧
      ∃ rest, text = padTo width cell ++ " | " ++ rest ∧ Aligned ws cells rest := by
  have hpositive : 0 < ws.length := List.length_pos_of_ne_nil hne
  have hcell := h.cell 0 width cell rfl rfl
  have hbar := h.bar 0 width rfl (by simpa using hpositive)
  rw [offset_zero, Nat.zero_add] at hbar
  refine ⟨fits_of_take hcell, String.ofList (text.toList.drop (width + 3)), ?_, ?_, ?_, ?_, ?_⟩
  · rw [offset_zero, List.drop_zero] at hcell
    rw [← String.toList_inj]
    calc text.toList = text.toList.take width ++ ((text.toList.drop width).take 3 ++
          (text.toList.drop width).drop 3) := by
          rw [List.take_append_drop, List.take_append_drop]
      _ = _ := by rw [hcell, hbar, List.drop_drop]; simp [toList_padTo]
  · simpa using h.columns
  · have hlength := h.length
    rw [List.sum_cons, List.length_cons, ← String.length_toList] at hlength
    rw [← String.length_toList, String.toList_ofList, List.length_drop, hlength]
    omega
  · intro i w c hw hc
    have hnext := h.cell (i + 1) w c hw hc
    rw [offset_succ, ← List.drop_drop] at hnext
    rw [String.toList_ofList]
    exact hnext
  · intro i w hw hi
    have hnext := h.bar (i + 1) w hw (Nat.succ_lt_succ hi)
    rw [offset_succ, Nat.add_assoc, ← List.drop_drop] at hnext
    rw [String.toList_ofList]
    exact hnext

theorem line_cons (hne : ws ≠ []) (hcells : cells ≠ []) :
    line (width :: ws) (cell :: cells) = padTo width cell ++ " | " ++ line ws cells := by
  apply String.intercalate_cons_of_ne_nil
  rw [Ne, List.zipWith_eq_nil_iff, not_or]
  exact ⟨hne, hcells⟩

/-- Cells that fit are aligned in their line and in no other text. -/
theorem aligned_iff :
    Aligned ws cells text ↔
      List.Forall₂ (fun width cell => cell.length ≤ width) ws cells ∧
        text = line ws cells := by
  induction ws generalizing cells text with
  | nil =>
    cases cells with
    | nil => simp [aligned_nil, line]
    | cons cell cells => exact iff_of_false (fun h => nomatch h.columns) fun h => nomatch h.1
  | cons width ws ih =>
    cases cells with
    | nil => exact iff_of_false (fun h => nomatch h.columns) fun h => nomatch h.1
    | cons cell cells =>
      rw [List.forall₂_cons, and_assoc]
      -- No bar stands behind the last column.
      by_cases hne : ws = []
      · subst hne
        cases cells with
        | nil => simp [aligned_singleton, line]
        | cons _ _ => exact iff_of_false (fun h => nomatch h.columns) fun h => nomatch h.2.1
      · have hcells (hfits : List.Forall₂ (fun width cell => cell.length ≤ width) ws cells) :
            cells ≠ [] := by
          rintro rfl
          cases hfits
          exact hne rfl
        constructor
        · intro h
          obtain ⟨hfit, rest, rfl, hrest⟩ := h.uncons hne
          obtain ⟨hfits, rfl⟩ := ih.mp hrest
          exact ⟨hfit, hfits, (line_cons hne (hcells hfits)).symm⟩
        · rintro ⟨hfit, hfits, rfl⟩
          rw [line_cons hne (hcells hfits)]
          exact (ih.mpr ⟨hfits, rfl⟩).cons hne hfit

end Lines

section Widths

variable {header : List String} {body : List (List String)}

theorem lengths_concat (grid : List (List String)) {cells : List String} {i : Nat} {cell : String}
    (h : cells[i]? = some cell) :
    lengths (grid ++ [cells]) i = lengths grid i ∪ {cell.length} := by
  ext n
  simp [lengths, or_and_right, exists_or, h, eq_comm, or_comm]

theorem widths_greatest (h : ∀ line ∈ body, line.length = header.length) :
    (widths header body).length = header.length ∧
      ∀ i width, (widths header body)[i]? = some width →
        IsGreatest (lengths (header :: body) i) width := by
  induction body using List.reverseRecOn with
  | nil =>
    refine ⟨List.length_map .., fun i width hwidth => ?_⟩
    obtain ⟨cell, hcell, rfl⟩ : ∃ cell, header[i]? = some cell ∧ cell.length = width := by
      simpa [widths] using hwidth
    have hlengths : lengths [header] i = {cell.length} := by
      simpa [lengths] using lengths_concat [] hcell
    rw [hlengths]
    exact isGreatest_singleton
  | append_singleton body line ih =>
    obtain ⟨hlength, hgreatest⟩ := ih fun other hother => h other (List.mem_append_left _ hother)
    have hwiden : widths header (body ++ [line]) = widen (widths header body) line := by
      simp [widths]
    rw [hwiden]
    constructor
    · rw [widen, List.length_zipWith, hlength, h line (by simp), Nat.min_self]
    · intro i width hwidth
      obtain ⟨old, cell, hold, hcell, rfl⟩ := List.getElem?_zipWith_eq_some.mp hwidth
      rw [← List.cons_append, lengths_concat _ hcell]
      exact (hgreatest i old hold).union isGreatest_singleton

theorem eq_widths (h : ∀ line ∈ body, line.length = header.length) {ws : List Nat}
    (hlength : ws.length = header.length)
    (hws : ∀ i width, ws[i]? = some width → IsGreatest (lengths (header :: body) i) width) :
    ws = widths header body := by
  obtain ⟨hlength', hgreatest⟩ := widths_greatest h
  apply List.ext_getElem (hlength.trans hlength'.symm)
  intro i hi hi'
  have hleft := hws i ws[i] (List.getElem?_eq_getElem hi)
  exact hleft.unique (hgreatest i _ (List.getElem?_eq_getElem hi'))

theorem fits_of_greatest {ws : List Nat} {line : List String} (hlength : line.length = ws.length)
    (hws : ∀ i width, ws[i]? = some width → IsGreatest (lengths (header :: body) i) width)
    (hline : line ∈ header :: body) :
    List.Forall₂ (fun width cell => cell.length ≤ width) ws line := by
  rw [List.forall₂_iff_get]
  refine ⟨hlength.symm, fun i hi hi' => ?_⟩
  apply (hws i _ (List.getElem?_eq_getElem hi)).2
  exact ⟨line, hline, _, List.getElem?_eq_getElem hi', rfl⟩

theorem fits_rule (ws : List Nat) :
    List.Forall₂ (fun width cell => cell.length ≤ width) ws (rule ws) := by
  rw [rule, List.forall₂_map_right_iff, List.forall₂_same]
  intro width _
  simp

end Widths

/-- The lines of a table: a header with the label and the names of the first row, a rule of dashes
and a line for each row in the order of the rows. -/
structure Drawn (label : String) (style : Style) (rows : List Row) (names : List String)
    (body : List (List String)) (widths : List Nat) (lines : List String) : Prop where
  named : names = rows.head?.elim [] fun first => first.values.map Prod.fst
  filled : List.Forall₂ (Filled style names) rows body
  columns : widths.length = names.length + 1
  widest : ∀ i width, widths[i]? = some width →
    IsGreatest (lengths ((label :: names) :: body) i) width
  held : ∀ width ∈ widths, width ≤ layoutLimit
  count : lines.length = rows.length + 2
  aligned : List.Forall₂ (Aligned widths)
    ((label :: names) :: (widths.map fun width => String.ofList (List.replicate width '-')) :: body)
    lines

variable {label : String} {style : Style} {rows : List Row}

theorem cells_eq_ok {names : List String} {row : Row} {line : List String} :
    cells style names row = .ok line ↔ Filled style names row line := by
  rw [cells, Traversal.map_eq_ok]
  simp only [Traversal.mapM_eq_ok, Traversal.bind_eq_ok, Row.value_eq_ok]
  exact exists_congr fun texts => and_comm.trans (and_congr_left' eq_comm)

theorem Filled.length {names : List String} {row : Row} {line : List String}
    (h : Filled style names row line) : line.length = names.length + 1 := by
  obtain ⟨texts, rfl, htexts⟩ := h
  rw [List.length_cons, htexts.length_eq]

theorem length_of_filled {names : List String} {body : List (List String)}
    (h : List.Forall₂ (Filled style names) rows body) :
    ∀ line ∈ body, line.length = names.length + 1 := by
  induction h with
  | nil => simp
  | cons hrow _ ih => exact List.forall_mem_cons.mpr ⟨hrow.length, ih⟩

theorem layout_eq_ok {header : List String} {body : List (List String)} {text : String} :
    layout header body = .ok text ↔
      (∀ width ∈ widths header body, width ≤ layoutLimit) ∧
        text = "\n".intercalate
          ((header :: rule (widths header body) :: body).map (line (widths header body))) := by
  rw [layout]
  by_cases hany : (widths header body).any (layoutLimit < ·) = true
  · rw [if_pos hany]
    refine iff_of_false (by simp) fun h => ?_
    obtain ⟨width, hwidth, hlimit⟩ := List.any_eq_true.mp hany
    exact absurd (of_decide_eq_true hlimit) (Nat.not_lt.mpr (h.1 width hwidth))
  · have hheld : ∀ width ∈ widths header body, width ≤ layoutLimit := by
      simpa using hany
    rw [if_neg hany, and_iff_right hheld, Except.ok.injEq, eq_comm]

theorem render_eq_ok {text : String} :
    render label style rows = .ok text ↔
      ∃ body, List.Forall₂ (Filled style (columns rows)) rows body ∧
        layout (header label rows) body = .ok text := by
  simp only [render, Traversal.bind_eq_ok, Traversal.mapM_eq_ok, cells_eq_ok]

theorem columns_eq (rows : List Row) :
    columns rows = rows.head?.elim [] fun first => first.values.map Prod.fst := by
  cases rows <;> rfl

theorem drawn_of_render {text : String} (h : render label style rows = .ok text) :
    ∃ body widths lines, Drawn label style rows (columns rows) body widths lines ∧
      text = "\n".intercalate lines := by
  obtain ⟨body, hbody, hlayout⟩ := render_eq_ok.mp h
  obtain ⟨hheld, rfl⟩ := layout_eq_ok.mp hlayout
  have hlengths := length_of_filled hbody
  obtain ⟨hlength, hgreatest⟩ := @widths_greatest (header label rows) body hlengths
  refine ⟨body, _, _, ⟨columns_eq rows, hbody, hlength, hgreatest, hheld,
    by simp [hbody.length_eq], ?_⟩, rfl⟩
  change List.Forall₂ _ (header label rows :: rule _ :: body) _
  rw [List.forall₂_map_right_iff, List.forall₂_same]
  intro cells hcells
  refine aligned_iff.mpr ⟨?_, rfl⟩
  obtain rfl | rfl | hcells : cells = header label rows ∨ cells = rule _ ∨ cells ∈ body := by
    simpa using hcells
  · exact fits_of_greatest hlength.symm hgreatest List.mem_cons_self
  · exact fits_rule _
  · exact fits_of_greatest ((hlengths cells hcells).trans hlength.symm) hgreatest
      (List.mem_cons_of_mem _ hcells)

theorem render_of_drawn {names : List String} {body : List (List String)} {ws : List Nat}
    {lines : List String} (h : Drawn label style rows names body ws lines) :
    render label style rows = .ok ("\n".intercalate lines) := by
  obtain rfl : names = columns rows := h.named.trans (columns_eq rows).symm
  obtain rfl : ws = widths (header label rows) body :=
    eq_widths (length_of_filled h.filled) h.columns h.widest
  refine render_eq_ok.mpr ⟨body, h.filled, layout_eq_ok.mpr ⟨h.held, congrArg _ ?_⟩⟩
  have hlines := (h.aligned.imp fun _ _ haligned => (aligned_iff.mp haligned).2).flip
  rwa [← List.forall₂_map_right_iff, List.forall₂_eq_eq_eq] at hlines

/-- What a table is: lines of one length, in which every column starts at the same place and is as
wide as its longest cell. -/
theorem render_eq_ok_iff_drawn (label : String) (style : Style) (rows : List Row) (text : String) :
    render label style rows = .ok text ↔
      ∃ names body widths lines, Drawn label style rows names body widths lines ∧
        text = "\n".intercalate lines := by
  constructor
  · exact fun h => ⟨_, drawn_of_render h⟩
  · rintro ⟨names, body, widths, lines, h, rfl⟩
    exact render_of_drawn h

end Table

end Rollup
