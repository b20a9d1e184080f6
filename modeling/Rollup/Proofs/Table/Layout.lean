import Mathlib.Data.List.Induction
import Rollup.Proofs.Scalar.Kinds
import Rollup.Proofs.Traversal
import Rollup.Table.Layout

namespace Rollup

theorem Row.value_ok {row : Row} {name : String} (h : name ∈ row.values.map Prod.fst) :
    ∃ value, row.value name = .ok value := by
  cases hget : row.get? name with
  | some value => exact ⟨value, by rw [Row.value, hget]⟩
  | none =>
    obtain ⟨entry, hentry, rfl⟩ := List.mem_map.mp h
    have hne := List.lookup_eq_none_iff.mp hget entry hentry
    simp at hne

theorem Row.mem_of_value {row : Row} {name : String} {value : Number}
    (h : row.value name = .ok value) : (name, value) ∈ row.values := by
  cases hget : row.get? name with
  | none =>
    rw [Row.value, hget] at h
    cases h
  | some found =>
    rw [Row.value, hget] at h
    cases h
    obtain ⟨before, after, hvalues, _⟩ := List.lookup_eq_some_iff.mp hget
    rw [hvalues]
    exact List.mem_append_cons_self

theorem Style.cell_error {style : Style} {column : String} {value : Number} {e : Error}
    (h : style.cell column value = .error e) :
    e = .layoutLimit ∧
      ∃ places, (style.places.get? column).join = some places ∧ layoutLimit < places := by
  rw [Style.cell] at h
  split at h
  · next places hplaces =>
    rw [Style.fixed] at h
    split at h
    · cases h
    · next hlimit =>
      cases h
      exact ⟨rfl, places, hplaces, Nat.lt_of_not_le hlimit⟩
  · cases h

namespace Table

def Full (names : List String) (rows : List Row) : Prop :=
  ∀ row ∈ rows, row.values.map Prod.fst = names

/-- A cell that no layout can hold: a number with too many decimal places, or a text that is too
wide. -/
inductive Oversized (label : String) (style : Style) (rows : List Row) : Prop
  | places {row : Row} {name : String} {value : Number} {places : Nat} (hrow : row ∈ rows)
      (hvalue : (name, value) ∈ row.values)
      (hplaces : (style.places.get? name).join = some places) (hlimit : layoutLimit < places)
  | label (hlimit : layoutLimit < label.length)
  | name {row : Row} {name : String} (hrow : row ∈ rows) (hname : name ∈ row.values.map Prod.fst)
      (hlimit : layoutLimit < name.length)
  | key {row : Row} (hrow : row ∈ rows) (hlimit : layoutLimit < row.key.display.length)
  | value {row : Row} {name text : String} {value : Number} (hrow : row ∈ rows)
      (hvalue : (name, value) ∈ row.values) (htext : style.cell name value = .ok text)
      (hlimit : layoutLimit < text.length)

variable {label : String} {style : Style} {names : List String} {rows : List Row}

theorem Oversized.mono {rows' : List Row} (h : Oversized label style rows) (hrows : rows ⊆ rows') :
    Oversized label style rows' := by
  cases h with
  | places hrow hvalue hplaces hlimit => exact .places (hrows hrow) hvalue hplaces hlimit
  | label hlimit => exact .label hlimit
  | name hrow hname hlimit => exact .name (hrows hrow) hname hlimit
  | key hrow hlimit => exact .key (hrows hrow) hlimit
  | value hrow hvalue htext hlimit => exact .value (hrows hrow) hvalue htext hlimit

theorem exists_row_of_mem_columns {name : String} (h : name ∈ columns rows) :
    ∃ row ∈ rows, name ∈ row.values.map Prod.fst := by
  cases rows with
  | nil => cases h
  | cons row rows => exact ⟨row, List.mem_cons_self, h⟩

theorem Full.mem_columns (h : Full names rows) {name : String} (hname : name ∈ columns rows)
    {row : Row} (hrow : row ∈ rows) : name ∈ row.values.map Prod.fst := by
  obtain ⟨other, hother, hmem⟩ := exists_row_of_mem_columns hname
  rwa [h row hrow, ← h other hother]

theorem cells_error {row : Row} {shown : List String} {e : Error}
    (hshown : ∀ name ∈ shown, name ∈ row.values.map Prod.fst)
    (h : cells style shown row = .error e) :
    e = .layoutLimit ∧ ∃ name value places, (name, value) ∈ row.values ∧
      (style.places.get? name).join = some places ∧ layoutLimit < places := by
  rw [cells, Traversal.map_eq_error] at h
  obtain ⟨name, hname, hcell⟩ := Traversal.error_of_mapM h
  obtain ⟨value, hvalue⟩ := Row.value_ok (hshown name hname)
  rw [hvalue] at hcell
  obtain ⟨rfl, places, hplaces, hlimit⟩ := Style.cell_error hcell
  exact ⟨rfl, name, value, places, Row.mem_of_value hvalue, hplaces, hlimit⟩

theorem mem_cells {row : Row} {shown line : List String} {text : String}
    (h : cells style shown row = .ok line) (htext : text ∈ line) :
    text = row.key.display ∨
      ∃ name value, (name, value) ∈ row.values ∧ style.cell name value = .ok text := by
  rw [cells, Traversal.map_eq_ok] at h
  obtain ⟨texts, htexts, rfl⟩ := h
  obtain rfl | htext := List.mem_cons.mp htext
  · exact .inl rfl
  · obtain ⟨name, _, hcell⟩ := (Traversal.mem_mapM htexts text).mp htext
    obtain ⟨value, hvalue, hcell⟩ := Traversal.bind_eq_ok.mp hcell
    exact .inr ⟨name, value, Row.mem_of_value hvalue, hcell⟩

theorem mem_widen {widths : List Nat} {line : List String} {width : Nat}
    (h : width ∈ widen widths line) : width ∈ widths ∨ ∃ cell ∈ line, cell.length = width := by
  rw [widen, ← List.map_uncurry_zip_eq_zipWith] at h
  obtain ⟨⟨old, cell⟩, hpair, rfl⟩ := List.mem_map.mp h
  obtain ⟨hold, hcell⟩ := List.of_mem_zip hpair
  obtain hle | hle := Nat.le_total old cell.length
  · exact .inr ⟨cell, hcell, (Nat.max_eq_right hle).symm⟩
  · left
    rw [Function.uncurry_apply_pair, Nat.max_eq_left hle]
    exact hold

theorem mem_widths {header : List String} {body : List (List String)} {width : Nat}
    (h : width ∈ widths header body) :
    ∃ line ∈ header :: body, ∃ cell ∈ line, cell.length = width := by
  induction body using List.reverseRecOn generalizing width with
  | nil =>
    obtain ⟨cell, hcell, hlength⟩ := List.mem_map.mp h
    exact ⟨header, List.mem_cons_self, cell, hcell, hlength⟩
  | append_singleton body line ih =>
    rw [widths, List.foldl_append] at h
    obtain hold | hnew := mem_widen h
    · obtain ⟨other, hother, hcell⟩ := ih hold
      refine ⟨other, ?_, hcell⟩
      rw [← List.cons_append]
      exact List.mem_append_left _ hother
    · exact ⟨line, by simp, hnew⟩

theorem layout_ok_or (header : List String) (body : List (List String)) :
    (∃ text, layout header body = .ok text) ∨
      layout header body = .error .layoutLimit ∧
        ∃ line ∈ header :: body, ∃ cell ∈ line, layoutLimit < cell.length := by
  by_cases hany : (widths header body).any (layoutLimit < ·) = true
  · right
    refine ⟨by rw [layout, if_pos hany], ?_⟩
    obtain ⟨width, hwidth, hlimit⟩ := List.any_eq_true.mp hany
    obtain ⟨line, hline, cell, hcell, rfl⟩ := mem_widths hwidth
    exact ⟨line, hline, cell, hcell, of_decide_eq_true hlimit⟩
  · exact .inl ⟨_, by rw [layout, if_neg hany]⟩

theorem render_ok_or (label : String) (style : Style) (h : Full names rows) :
    (∃ text, render label style rows = .ok text) ∨
      render label style rows = .error .layoutLimit ∧ Oversized label style rows := by
  cases hbody : rows.mapM (cells style (columns rows)) with
  | error e =>
    obtain ⟨row, hrow, hcells⟩ := Traversal.error_of_mapM hbody
    obtain ⟨rfl, name, value, places, hvalue, hplaces, hlimit⟩ :=
      cells_error (fun name hname => h.mem_columns hname hrow) hcells
    exact .inr ⟨by rw [render, hbody]; rfl, .places hrow hvalue hplaces hlimit⟩
  | ok body =>
    have hrender : render label style rows = layout (header label rows) body := by
      rw [render, hbody]
      rfl
    rw [hrender]
    refine (layout_ok_or (header label rows) body).imp_right (And.imp_right ?_)
    rintro ⟨line, hline, cell, hcell, hlimit⟩
    obtain rfl | hline := List.mem_cons.mp hline
    · obtain rfl | hcell := List.mem_cons.mp hcell
      · exact .label hlimit
      · obtain ⟨row, hrow, hname⟩ := exists_row_of_mem_columns hcell
        exact .name hrow hname hlimit
    · obtain ⟨row, hrow, hcells⟩ := (Traversal.mem_mapM hbody line).mp hline
      obtain rfl | ⟨name, value, hvalue, htext⟩ := mem_cells hcells hcell
      · exact .key hrow hlimit
      · exact .value hrow hvalue htext hlimit

theorem keyed_eq_ok {sortKey : String} {row : Row} {pair : Number × Row} :
    keyed sortKey row = .ok pair ↔ row.get? sortKey = some pair.1 ∧ row = pair.2 := by
  rw [keyed, Row.value]
  cases row.get? sortKey with
  | none => exact ⟨nofun, nofun⟩
  | some value => simp [Except.map, Prod.ext_iff]

theorem rows_of_keyed {sortKey : String} {pairs : List (Number × Row)}
    (h : rows.mapM (keyed sortKey) = .ok pairs) : pairs.map Prod.snd = rows := by
  rw [← List.map_id rows]
  exact Traversal.mapM_keeps h fun row _ pair hpair => (keyed_eq_ok.mp hpair).2.symm

theorem values_of_keyed {sortKey : String} {pairs : List (Number × Row)}
    (h : rows.mapM (keyed sortKey) = .ok pairs) :
    rows.map (·.get? sortKey) = (pairs.map Prod.fst).map some := by
  rw [List.map_map]
  exact (Traversal.mapM_keeps h fun row _ pair hpair => (keyed_eq_ok.mp hpair).1.symm).symm

theorem keyed_ok (h : Full names rows) {sortKey : String} (hkey : sortKey ∈ names) :
    ∃ pairs, rows.mapM (keyed sortKey) = .ok pairs := by
  apply Traversal.mapM_succeeds_iff.mpr
  intro row hrow
  obtain ⟨value, hvalue⟩ := Row.value_ok ((h row hrow).symm ▸ hkey)
  exact ⟨(value, row), by rw [keyed, hvalue]; rfl⟩

section Keyed

variable {sortKey : String} {descending : Bool} {pairs : List (Number × Row)}
  (hpairs : rows.mapM (keyed sortKey) = .ok pairs)
include hpairs

theorem sort_eq_ok {sorted : List (Number × Row)}
    (h : sort? (ahead descending) pairs = some sorted) :
    sort sortKey descending rows = .ok (sorted.map Prod.snd) := by
  rw [sort, hpairs]
  simp only [Except.bind, h]

theorem sort_unordered (h : sort? (ahead descending) pairs = none) :
    sort sortKey descending rows = .error .unordered := by
  rw [sort, hpairs]
  simp only [Except.bind, h]

end Keyed

theorem sort_perm {sortKey : String} {descending : Bool} {sorted : List Row}
    (h : sort sortKey descending rows = .ok sorted) : sorted.Perm rows := by
  obtain ⟨pairs, hpairs, -⟩ := Traversal.bind_eq_ok.mp h
  cases hsort : sort? (ahead descending) pairs with
  | none => cases h.symm.trans (sort_unordered hpairs hsort)
  | some placed =>
    cases h.symm.trans (sort_eq_ok hpairs hsort)
    have hperm := (sort?_perm (ahead descending) hsort).map Prod.snd
    rwa [rows_of_keyed hpairs] at hperm

theorem tangled_of_unsorted {descending : Bool} {pairs : List (Number × Row)}
    (h : sort? (ahead descending) pairs = none) :
    Scalar.Tangled (pairs.map fun pair => .number pair.1) := by
  obtain ⟨hlength, hordered⟩ := sort?_eq_none h
  refine ⟨by rwa [List.length_map], ?_⟩
  by_contra hnone
  push Not at hnone
  have hbelow := (Scalar.orderedOn_below hnone).of_map
  apply hordered
  cases descending with
  | false => exact hbelow
  | true => exact hbelow.flip

theorem sort_ok_or (h : Full names rows) {sortKey : String} (hkey : sortKey ∈ names)
    (descending : Bool) :
    (∃ sorted, sort sortKey descending rows = .ok sorted) ∨
      sort sortKey descending rows = .error .unordered ∧
        Scalar.Tangled ((rows.filterMap (·.get? sortKey)).map .number) := by
  obtain ⟨pairs, hpairs⟩ := keyed_ok h hkey
  cases hsort : sort? (ahead descending) pairs with
  | some placed => exact .inl ⟨_, sort_eq_ok hpairs hsort⟩
  | none =>
    refine .inr ⟨sort_unordered hpairs hsort, ?_⟩
    rw [Traversal.filterMap_of_map (values_of_keyed hpairs), List.map_map]
    exact tangled_of_unsorted hsort

theorem renderSorted_ok_or (label : String) (descending : Bool) (style : Style)
    (h : Full names rows) {sortKey : String} (hkey : sortKey ∈ names) :
    (∃ text, renderSorted label sortKey descending style rows = .ok text) ∨
      renderSorted label sortKey descending style rows = .error .layoutLimit ∧
        Oversized label style rows ∨
      renderSorted label sortKey descending style rows = .error .unordered ∧
        Scalar.Tangled ((rows.filterMap (·.get? sortKey)).map .number) := by
  obtain ⟨sorted, hsorted⟩ | ⟨hunordered, htangled⟩ := sort_ok_or h hkey descending
  · have hperm := sort_perm hsorted
    have hrender :
        renderSorted label sortKey descending style rows = render label style sorted := by
      rw [renderSorted, hsorted]
      rfl
    have hfull : Full names sorted := fun row hrow => h row (hperm.mem_iff.mp hrow)
    rw [hrender]
    obtain hrendered | ⟨hlimit, hover⟩ := render_ok_or label style hfull
    · exact .inl hrendered
    · exact .inr (.inl ⟨hlimit, hover.mono hperm.subset⟩)
  · exact .inr (.inr ⟨by rw [renderSorted, hunordered]; rfl, htangled⟩)

end Table

end Rollup
