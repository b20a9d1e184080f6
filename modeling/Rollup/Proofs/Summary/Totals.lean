import Mathlib.Algebra.Ring.Int.Defs
import Rollup.Proofs.Grouping.Pieces
import Rollup.Proofs.Stat.Integers
import Rollup.Proofs.Summary.Meaning

namespace Rollup

namespace Number

theorem ofNat_eq_int {k : Nat} (h : k < 2 ^ 63) : ∃ n : Int64, ofNat k = .int n ∧ n.toInt = k := by
  have hmin : min k 0x7FFFFFFFFFFFFFFF = k := by omega
  refine ⟨.ofInt k, by rw [ofNat, hmin], ?_⟩
  exact Int64.toInt_ofInt_of_le (by omega) (by omega)

theorem map_ofNat_eq {counts : List Nat} (h : counts.sum < 2 ^ 63) :
    ∃ ns : List Int64, counts.map ofNat = ns.map .int ∧ (ns.map Int64.toInt).sum = counts.sum := by
  induction counts with
  | nil => exact ⟨[], rfl, rfl⟩
  | cons k counts ih =>
    rw [List.sum_cons] at h
    obtain ⟨n, hn, hvalue⟩ := ofNat_eq_int (k := k) (by omega)
    obtain ⟨ns, hns, hsum⟩ := ih (by omega)
    refine ⟨n :: ns, by rw [List.map_cons, hn, hns, List.map_cons], ?_⟩
    rw [List.map_cons, List.sum_cons, List.sum_cons, hvalue, hsum]
    exact (Int.natCast_add _ _).symm

end Number

namespace Stat

variable {stat : Stat} {items : List Item} {groups : List (Group Item)} {values : List Number}

theorem evaluate_count (hcount : stat.reduction = .count) (hplain : stat.distinct = false)
    (items : List Item) : stat.evaluate items = .ok (.ofNat items.length) := by
  have hreads : stat.readsField = false := by rw [readsField, hcount, hplain]; rfl
  rw [evaluate, hreads]
  rfl

theorem evaluate_groups {r : Int64 → Int64 → Prop} (hantisymm : ∀ {m n}, r m n → r n m → m = n)
    (hfinds : stat.reduction.Finds r) (hreads : stat.readsField = true)
    {category : String} {value? : Item → Option Scalar}
    (hgroups : groupBy category value? items = .ok groups) (hne : items ≠ [])
    {value : Item → Int64} (h : stat.Integral items value)
    (hvalues : groups.mapM (fun group => stat.evaluate group.members) = .ok values) :
    ∃ ns : List Int64, values = ns.map .int ∧
      ∃ m ∈ ns, stat.evaluate items = .ok (.int m) ∧ ∀ n ∈ ns, r m n := by
  obtain ⟨hfilled, hmembers⟩ := Grouping.mem_groupBy hgroups
  have hgroup : ∀ group ∈ groups, ∃ best ∈ items,
      stat.evaluate group.members = .ok (.int (value best)) ∧
        ∀ item ∈ group.members, r (value best) (value item) := by
    intro group hgroup
    have hitems : ∀ item ∈ group.members, item ∈ items := fun item hitem =>
      (hmembers item).mp ⟨group, hgroup, hitem⟩
    have hintegral : stat.Integral group.members value :=
      fun item hitem => h item (hitems item hitem)
    obtain ⟨best, hbest, hresult, hbound⟩ :=
      evaluate_bound hfinds hreads hintegral (hfilled group hgroup)
    exact ⟨best, hitems best hbest, hresult, hbound⟩
  have hrange : values ∈ Set.range (List.map Number.int) := by
    rw [Set.range_list_map]
    intro number hnumber
    obtain ⟨group, hmem, hresult⟩ := (Traversal.mem_mapM hvalues number).mp hnumber
    obtain ⟨best, -, hbest, -⟩ := hgroup group hmem
    cases hresult.symm.trans hbest
    exact ⟨_, rfl⟩
  obtain ⟨ns, rfl⟩ := hrange
  have hmem : ∀ n, n ∈ ns ↔ ∃ group ∈ groups, stat.evaluate group.members = .ok (.int n) := by
    intro n
    rw [← Traversal.mem_mapM hvalues, List.mem_map]
    constructor
    · exact fun hn => ⟨n, hn, rfl⟩
    · rintro ⟨m, hm, heq⟩
      cases heq
      exact hm
  obtain ⟨best, hbest, hresult, hbound⟩ := evaluate_bound hfinds hreads h hne
  refine ⟨ns, rfl, value best, ?_, hresult, fun n hn => ?_⟩
  · -- The best item is in some group, which has no better one.
    obtain ⟨group, hin, hmember⟩ := (hmembers best).mpr hbest
    obtain ⟨other, hother, hotherResult, hotherBound⟩ := hgroup group hin
    have heq : value other = value best :=
      hantisymm (hotherBound best hmember) (hbound other hother)
    exact (hmem _).mpr ⟨group, hin, heq ▸ hotherResult⟩
  · obtain ⟨group, hin, hn⟩ := (hmem n).mp hn
    obtain ⟨other, hother, hotherResult, -⟩ := hgroup group hin
    cases hn.symm.trans hotherResult
    exact hbound other hother

end Stat

namespace Summary

variable {pieces : List String} {name : String} {stat : Stat}

theorem Means.value_ok {group : Group Item} {row : Row} (h : Means pieces group row)
    (hname : name ∈ pieces) (hstat : Stat.parse name = .ok stat) :
    ∃ value, row.value name = .ok value ∧ stat.evaluate group.members = .ok value := by
  rw [← List.mem_eraseDups, ← h.names] at hname
  obtain ⟨value, hvalue⟩ := Row.value_ok hname
  obtain ⟨stat', hparse, hresult⟩ := h.value _ (Row.mem_of_value hvalue)
  cases hstat.symm.trans hparse
  exact ⟨value, hvalue, hresult⟩

theorem exists_column {groups : List (Group Item)} {rows : List Row}
    (h : List.Forall₂ (Means pieces) groups rows) (hname : name ∈ pieces)
    (hstat : Stat.parse name = .ok stat) :
    ∃ values, rows.mapM (·.value name) = .ok values ∧
      groups.mapM (fun group => stat.evaluate group.members) = .ok values := by
  induction h with
  | nil => exact ⟨[], rfl, rfl⟩
  | cons hrow _ ih =>
    obtain ⟨value, hvalue, hresult⟩ := hrow.value_ok hname hstat
    obtain ⟨values, hvalues, hresults⟩ := ih
    rw [Traversal.mapM_eq_ok] at hvalues hresults
    refine ⟨value :: values, ?_, ?_⟩
    · exact Traversal.mapM_eq_ok.mpr (.cons hvalue hvalues)
    · exact Traversal.mapM_eq_ok.mpr (.cons hresult hresults)

/-- In a column of counts the rows add up to the pieces of the selected items, which outside the
list categories are the items themselves. In a column of least (or greatest) values of a field that
holds integers only, the least (or greatest) of the rows is that of all selected items. -/
theorem compute_totals {library : Library} {options : Options} {results : Results}
    (h : compute library options = .ok results) {name : String} {stat : Stat}
    (hname : name ∈ Text.pieces ' ' options.stats) (hstat : Stat.parse name = .ok stat) :
    let items := library.items.filter (Query.parse options.query).selects
    let category := Text.lowercase options.groupBy
    let total := (items.map (Grouping.mentions category (·.field? category))).sum
    ∃ values, results.rows.mapM (·.value name) = .ok values ∧
      (stat.reduction = .count → stat.distinct = false →
        (∃ counts : List Nat, values = counts.map .ofNat ∧ counts.sum = total) ∧
        (total < 2 ^ 63 → ∃ ns : List Int64,
          values = ns.map .int ∧ (ns.map Int64.toInt).sum = total) ∧
        (category ∉ Grouping.listCategories → total = items.length)) ∧
      ((∀ item ∈ items, ∃ n, item.field? stat.field = some (.int n)) →
        (stat.reduction = .min → ∃ ns : List Int64, values = ns.map .int ∧
          ∃ m ∈ ns, stat.evaluate items = .ok (.int m) ∧ ∀ n ∈ ns, m ≤ n) ∧
        (stat.reduction = .max → ∃ ns : List Int64, values = ns.map .int ∧
          ∃ m ∈ ns, stat.evaluate items = .ok (.int m) ∧ ∀ n ∈ ns, m ≥ n)) := by
  intro items category total
  obtain ⟨hne, -, groups, hgroups, hrows⟩ := means_of_compute h
  rw [library.matching_eq_filter] at hne hgroups
  obtain ⟨values, hcolumn, hvalues⟩ := exists_column hrows hname hstat
  refine ⟨values, hcolumn, fun hcount hplain => ?_, fun hints => ?_⟩
  · have hcounts : values = (groups.map (·.members.length)).map .ofNat := by
      have hmap : groups.mapM (fun group => stat.evaluate group.members) =
          .ok (groups.map fun group => .ofNat group.members.length) :=
        Traversal.mapM_eq_map fun group _ => Stat.evaluate_count hcount hplain group.members
      rw [hvalues, Except.ok.injEq] at hmap
      rw [hmap, List.map_map]
      rfl
    have hsum : (groups.map (·.members.length)).sum = total := Grouping.sum_length_groupBy hgroups
    refine ⟨⟨_, hcounts, hsum⟩, fun hfits => ?_, Grouping.sum_mentions hgroups⟩
    rw [hcounts, ← hsum]
    exact Number.map_ofNat_eq (hsum.symm ▸ hfits)
  · choose! value hvalue using hints
    refine ⟨fun hmin => ?_, fun hmax => ?_⟩
    · exact Stat.evaluate_groups Int64.le_antisymm (hmin ▸ Reduction.min_finds)
        (by rw [Stat.readsField, hmin]; rfl) hgroups hne hvalue hvalues
    · exact Stat.evaluate_groups (fun hmn hnm => Int64.le_antisymm hnm hmn)
        (hmax ▸ Reduction.max_finds) (by rw [Stat.readsField, hmax]; rfl) hgroups hne hvalue hvalues

def songs : Library :=
  ⟨[.ofMembers [("genre", .string "Rock; Pop"), ("year", .number (.int 1994))],
    .ofMembers [("genre", .string "Pop"), ("year", .number (.int 1991))]]⟩

/-- The genres of the songs count three songs, and the earliest year of a genre is that of all. -/
theorem compute_totals_songs :
    ∃ results, compute songs ⟨"", "Genre", "count min|year", true⟩ = .ok results ∧
      (∃ ns : List Int64, results.rows.mapM (·.value "count") = .ok (ns.map .int) ∧
        (ns.map Int64.toInt).sum = 3) ∧
      ∃ ns : List Int64, results.rows.mapM (·.value "min|year") = .ok (ns.map .int) ∧
        ∃ m ∈ ns, (Stat.mk "year" .min none false).evaluate songs.items = .ok (.int m) ∧
          ∀ n ∈ ns, m ≤ n := by
  have hcompute : ∃ results, compute songs ⟨"", "Genre", "count min|year", true⟩ = .ok results := by
    have hok : (compute songs ⟨"", "Genre", "count min|year", true⟩).isOk = true := by
      decide +kernel
    cases h : compute songs ⟨"", "Genre", "count min|year", true⟩ with
    | ok results => exact ⟨results, rfl⟩
    | error e => rw [h] at hok; cases hok
  have hitems : songs.items.filter (Query.parse "").selects = songs.items :=
    (songs.matching_eq_filter "").symm
  have hpieces : Text.pieces ' ' "count min|year" = ["count", "min|year"] := by decide +kernel
  have hcount : Stat.parse "count" = .ok .count := by decide +kernel
  have hmin : Stat.parse "min|year" = .ok ⟨"year", .min, none, false⟩ := by decide +kernel
  obtain ⟨results, h⟩ := hcompute
  refine ⟨results, h, ?_, ?_⟩
  · obtain ⟨values, hcolumn, hcounts, -⟩ := compute_totals h (hpieces ▸ by simp) hcount
    obtain ⟨ns, rfl, hsum⟩ := (hcounts rfl rfl).2.1 (by rw [hitems]; decide +kernel)
    refine ⟨ns, hcolumn, hsum.trans ?_⟩
    rw [hitems]
    decide +kernel
  · obtain ⟨values, hcolumn, -, hbounds⟩ := compute_totals h (hpieces ▸ by simp) hmin
    rw [hitems] at hbounds
    have hyears : ∀ item ∈ songs.items, ∃ n, item.field? "year" = some (.int n) := by
      intro item hitem
      obtain rfl | rfl : item = _ ∨ item = _ := by simpa [songs] using hitem
      · exact ⟨1994, by decide +kernel⟩
      · exact ⟨1991, by decide +kernel⟩
    obtain ⟨ns, rfl, hleast⟩ := (hbounds hyears).1 rfl
    exact ⟨ns, hcolumn, hleast⟩

end Summary

end Rollup
