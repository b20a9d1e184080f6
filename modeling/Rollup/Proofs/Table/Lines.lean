import Rollup.Proofs.Table.Alignment
import Rollup.Proofs.Text.Cut
import Rollup.Proofs.Text.Decimal

namespace Rollup

def Text.breaks (s : String) : Nat := s.toList.count '\n'

open Text (breaks)

theorem Text.breaks_eq_zero {s : String} : breaks s = 0 ↔ '\n' ∉ s.toList := List.count_eq_zero

theorem Text.length_pieces (separator : Char) (s : String) :
    (pieces separator s).length = s.toList.count separator + 1 := by
  rw [pieces, List.length_map, length_splitOn]

theorem Binary64.unbroken_signed (x : Binary64) {magnitude : List Char} (h : '\n' ∉ magnitude) :
    '\n' ∉ x.signed magnitude := by
  rw [signed]
  split
  · decide
  · rw [List.mem_append, not_or]
    constructor
    · split <;> decide
    · split
      · decide
      · exact h

theorem Text.unbroken_withPlaces (n places : Nat) : '\n' ∉ withPlaces n places := by
  intro h
  obtain hdigit | hpoint := mem_withPlaces h
  · exact absurd hdigit (by decide)
  · exact absurd hpoint (by decide)

namespace Number

theorem breaks_display (x : Number) : breaks x.display = 0 := by
  rw [Text.breaks_eq_zero]
  cases x with
  | int n =>
    rw [display, Text.toList_toString, List.mem_append, not_or]
    constructor
    · split <;> decide
    · exact fun h => absurd (Text.isDigit_of_mem_natural h) (by decide)
  | real x =>
    rw [display, String.toList_ofList]
    apply x.unbroken_signed
    split
    · exact Text.unbroken_withPlaces _ _
    · exact Text.unbroken_withPlaces _ _

theorem breaks_displayPlaces (x : Number) (places : Nat) : breaks (x.displayPlaces places) = 0 := by
  rw [Text.breaks_eq_zero, displayPlaces, String.toList_ofList]
  apply x.toReal.unbroken_signed
  rw [List.mem_append, not_or]
  refine ⟨Text.unbroken_withPlaces _ _, fun h => ?_⟩
  exact absurd (List.eq_of_mem_replicate h) (by decide)

end Number

theorem Style.breaks_cell {style : Style} {column text : String} {value : Number}
    (h : style.cell column value = .ok text) : breaks text = 0 := by
  rw [Style.cell] at h
  split at h
  · rw [Style.fixed] at h
    split at h
    · cases h
      exact Number.breaks_displayPlaces ..
    · cases h
  · cases h
    exact Number.breaks_display value

namespace Table

variable {ws : List Nat} {cells : List String} {style : Style} {rows : List Row} {label : String}

theorem breaks_append (s t : String) : breaks (s ++ t) = breaks s + breaks t := by
  rw [breaks, String.toList_append, List.count_append]
  rfl

theorem breaks_padTo (width : Nat) (cell : String) : breaks (padTo width cell) = breaks cell := by
  rw [padTo, breaks_append, Nat.add_eq_left, Text.breaks_eq_zero, String.toList_ofList]
  exact fun h => absurd (List.eq_of_mem_replicate h) (by decide)

theorem breaks_line (h : cells.length = ws.length) :
    breaks (line ws cells) = (cells.map breaks).sum := by
  induction ws generalizing cells with
  | nil =>
    obtain rfl := List.eq_nil_of_length_eq_zero h
    rfl
  | cons width ws ih =>
    obtain ⟨cell, cells, rfl⟩ := List.exists_cons_of_length_eq_add_one h
    rw [List.length_cons, List.length_cons, Nat.succ_inj] at h
    rw [List.map_cons, List.sum_cons, ← ih h, ← breaks_padTo width cell]
    by_cases hne : ws = []
    · subst hne
      obtain rfl := List.eq_nil_of_length_eq_zero h
      rfl
    · have hcells : cells ≠ [] := by
        rintro rfl
        exact hne (List.eq_nil_of_length_eq_zero h.symm)
      have hbar : breaks " | " = 0 := by decide
      rw [line_cons hne hcells, breaks_append, breaks_append, hbar, Nat.add_zero]

theorem breaks_rule (ws : List Nat) : ((rule ws).map breaks).sum = 0 := by
  rw [List.sum_eq_zero_iff_forall_eq_nat, List.forall_mem_map, rule, List.forall_mem_map]
  intro width _
  rw [Text.breaks_eq_zero, String.toList_ofList]
  exact fun h => absurd (List.eq_of_mem_replicate h) (by decide)

theorem Filled.breaks {names : List String} {row : Row} {line : List String}
    (h : Filled style names row line) : (line.map breaks).sum = breaks row.key.display := by
  obtain ⟨texts, rfl, htexts⟩ := h
  have hnone : (texts.map Text.breaks).sum = 0 := by
    induction htexts with
    | nil => rfl
    | cons hcell _ ih =>
      obtain ⟨value, -, hcell⟩ := hcell
      rw [List.map_cons, List.sum_cons, Style.breaks_cell hcell, ih]
  rw [List.map_cons, List.sum_cons, hnone, Nat.add_zero]

theorem Aligned.breaks {text : String} (h : Aligned ws cells text) :
    breaks text = (cells.map breaks).sum := by
  obtain ⟨-, rfl⟩ := aligned_iff.mp h
  exact breaks_line h.columns

/-- A text has as many lines as were joined in it, and one for each break that was in them. -/
theorem lines_joined {lines : List String} (hne : lines ≠ []) :
    (Text.pieces '\n' ("\n".intercalate lines)).length = lines.length + (lines.map breaks).sum := by
  have hparts : lines.map String.toList ≠ [] := by simpa using hne
  have hcount := Text.count_intercalate '\n' ['\n'] hparts
  have hone : List.count '\n' ['\n'] = 1 := by decide
  rw [hone, List.map_map, List.length_map, Nat.mul_one] at hcount
  rw [Text.length_pieces, String.toList_intercalate, Nat.add_comm lines.length]
  exact hcount

theorem lines_of_render {text : String} (h : render label style rows = .ok text) :
    (Text.pieces '\n' text).length = rows.length + 2 + (((header label rows).map breaks).sum +
      (rows.map fun row => breaks row.key.display).sum) := by
  obtain ⟨body, ws, lines, hdrawn, rfl⟩ := drawn_of_render h
  have hne : lines ≠ [] := List.ne_nil_of_length_pos (by rw [hdrawn.count]; omega)
  -- A line has the breaks of its cells, also the rule, and a row only those of its key.
  have hlines : lines.map breaks =
      (header label rows :: rule ws :: body).map fun cells => (cells.map breaks).sum := by
    rw [← List.forall₂_eq_eq_eq, List.forall₂_map_left_iff, List.forall₂_map_right_iff]
    exact hdrawn.aligned.flip.imp fun _ _ => Aligned.breaks
  have hbody : (body.map fun cells => (cells.map breaks).sum) =
      rows.map fun row => breaks row.key.display := by
    rw [← List.forall₂_eq_eq_eq, List.forall₂_map_left_iff, List.forall₂_map_right_iff]
    exact hdrawn.filled.flip.imp fun _ _ => Filled.breaks
  rw [lines_joined hne, hdrawn.count, hlines, List.map_cons, List.map_cons, List.sum_cons,
    List.sum_cons, breaks_rule, Nat.zero_add, hbody]

end Table

end Rollup
