import Rollup.Proofs.Binary64.Grammar
import Rollup.Proofs.Text.LetterCase

namespace Rollup.Binary64

open Text

theorem exponent?_toLower (cs : List Char) :
    exponent? (cs.map Char.toLower) = exponent? cs := by
  unfold exponent?
  rw [splitSign_toLower]
  generalize splitSign cs = signed
  obtain ⟨negative, digits⟩ := signed
  dsimp only
  rw [List.isEmpty_map, List.all_map, isDigit_comp_toLower]
  cases hread : digits.isEmpty || !digits.all isDigit with
  | true => rfl
  | false =>
    rw [Bool.or_eq_false_iff, Bool.not_eq_false', List.all_eq_true] at hread
    rw [map_toLower_digits hread.2]

theorem scaled?_toLower (whole fraction tail : List Char) :
    scaled? whole fraction (tail.map Char.toLower) = scaled? whole fraction tail := by
  cases tail with
  | nil => rfl
  | cons mark cs =>
    have hmarks : (fun c => decide (c = 'e' ∨ c = 'E')) ∘ Char.toLower =
        fun c => decide (c = 'e' ∨ c = 'E') := comp_toLower (by decide +kernel)
    have hmark : (mark.toLower = 'e' ∨ mark.toLower = 'E') ↔ (mark = 'e' ∨ mark = 'E') :=
      decide_eq_decide.mp (congrFun hmarks mark)
    simp only [List.map_cons, scaled?, hmark, exponent?_toLower]

theorem decimal?_toLower (cs : List Char) : decimal? (cs.map Char.toLower) = decimal? cs := by
  by_cases hpoint : ∃ rest, cs.dropWhile isDigit = '.' :: rest
  · obtain ⟨rest, hrest⟩ := hpoint
    have hlower : (cs.map Char.toLower).dropWhile isDigit = '.' :: rest.map Char.toLower := by
      rw [dropWhile_isDigit_toLower, hrest]
      rfl
    rw [decimal?_point hrest, decimal?_point hlower, takeWhile_isDigit_toLower,
      takeWhile_isDigit_toLower, dropWhile_isDigit_toLower, scaled?_toLower]
  · have hlower : ∀ rest, (cs.map Char.toLower).dropWhile isDigit ≠ '.' :: rest := by
      intro rest hrest
      rw [dropWhile_isDigit_toLower] at hrest
      obtain ⟨c, after, hafter, hc, -⟩ := List.map_eq_cons_iff.mp hrest
      rw [toLower_eq_iff (by decide)] at hc
      exact hpoint ⟨after, by rw [hafter, hc]⟩
    rw [decimal?_whole (not_exists.mp hpoint), decimal?_whole hlower, takeWhile_isDigit_toLower,
      dropWhile_isDigit_toLower, scaled?_toLower]

theorem parse?_toLower (cs : List Char) : parse? (cs.map Char.toLower) = parse? cs := by
  unfold parse?
  rw [splitSign_toLower]
  dsimp only
  rw [map_toLower_map_toLower, decimal?_toLower]

end Rollup.Binary64
