import Mathlib.Data.List.TakeWhile
import Rollup.Proofs.Binary64.Reader

namespace Rollup.Binary64

open Text

inductive Scaled : List Char → Int → Prop
  | plain : Scaled [] 0
  | marked {mark : Char} {cs : List Char} {n : Int} (hmark : mark = 'e' ∨ mark = 'E')
      (hwrites : Writes cs n) : Scaled (mark :: cs) n

/-- Digits with at most one point among or beside them, and an exponent. -/
inductive Decimal : List Char → Nat → Int → Prop
  | whole {digits tail : List Char} {n : Int} (hne : digits ≠ [])
      (hdigits : ∀ c ∈ digits, isDigit c = true) (htail : Scaled tail n) :
      Decimal (digits ++ tail) (valueOfDigits digits) n
  | pointed {whole fraction tail : List Char} {n : Int} (hne : whole ++ fraction ≠ [])
      (hwhole : ∀ c ∈ whole, isDigit c = true) (hfraction : ∀ c ∈ fraction, isDigit c = true)
      (htail : Scaled tail n) :
      Decimal (whole ++ '.' :: (fraction ++ tail)) (valueOfDigits (whole ++ fraction))
        (n - fraction.length)

variable {cs : List Char} {digits : Nat} {n : Int}

theorem exponent?_eq_some_iff : exponent? cs = some n ↔ Writes cs n := by
  constructor
  · intro h
    rw [exponent?] at h
    have hsplit : ∃ negative ds, splitSign cs = (negative, ds) := ⟨_, _, rfl⟩
    obtain ⟨negative, ds, hsplit⟩ := hsplit
    simp only [hsplit, Option.ite_none_left_eq_some, Bool.or_eq_true, not_or, Bool.not_eq_true,
      List.isEmpty_eq_false_iff, Bool.not_eq_false', List.all_eq_true, Option.some.injEq] at h
    obtain ⟨⟨hne, hdigits⟩, rfl⟩ := h
    unfold splitSign at hsplit
    split at hsplit
    · cases hsplit
      exact .minus hne hdigits
    · cases hsplit
      exact .plus hne hdigits
    · cases hsplit
      exact .unsigned hne hdigits
  · intro h
    have hread {ds : List Char} (hne : ds ≠ []) (hdigits : ∀ c ∈ ds, isDigit c = true) :
        (ds.isEmpty || !ds.all isDigit) = false := by
      simpa [hne] using hdigits
    cases h with
    | unsigned hne hdigits => simp [exponent?, splitSign_digits hdigits, hread hne hdigits]
    | plus hne hdigits => simp [exponent?, splitSign, hread hne hdigits]
    | minus hne hdigits => simp [exponent?, splitSign, hread hne hdigits]

theorem Scaled.takeWhile_append (h : Scaled cs n) {ds : List Char}
    (hds : ∀ c ∈ ds, isDigit c = true) : (ds ++ cs).takeWhile isDigit = ds := by
  rw [List.takeWhile_append_of_pos hds]
  cases h with
  | plain => exact List.append_nil ds
  | marked hmark => obtain rfl | rfl := hmark <;> exact List.append_nil ds

theorem Scaled.dropWhile_append (h : Scaled cs n) {ds : List Char}
    (hds : ∀ c ∈ ds, isDigit c = true) : (ds ++ cs).dropWhile isDigit = cs := by
  rw [List.dropWhile_append_of_pos hds]
  cases h with
  | plain => rfl
  | marked hmark => obtain rfl | rfl := hmark <;> rfl

def scaled? (whole fraction tail : List Char) : Option (Nat × Int) :=
  if whole.isEmpty && fraction.isEmpty then none
  else match tail with
    | [] => some (valueOfDigits (whole ++ fraction), -(fraction.length : Int))
    | mark :: cs =>
      if mark = 'e' ∨ mark = 'E' then
        (exponent? cs).map fun n => (valueOfDigits (whole ++ fraction), n - fraction.length)
      else none

theorem decimal?_point {rest : List Char} (h : cs.dropWhile isDigit = '.' :: rest) :
    decimal? cs =
      scaled? (cs.takeWhile isDigit) (rest.takeWhile isDigit) (rest.dropWhile isDigit) := by
  unfold decimal?
  rw [h]
  rfl

theorem decimal?_whole (h : ∀ rest, cs.dropWhile isDigit ≠ '.' :: rest) :
    decimal? cs = scaled? (cs.takeWhile isDigit) [] (cs.dropWhile isDigit) := by
  unfold decimal?
  generalize cs.dropWhile isDigit = afterWhole at h
  dsimp only
  split
  · next rest => exact absurd rfl (h rest)
  · rfl

theorem scaled?_eq_some_iff {whole fraction tail : List Char} :
    scaled? whole fraction tail = some (digits, n) ↔
      whole ++ fraction ≠ [] ∧ digits = valueOfDigits (whole ++ fraction) ∧
        Scaled tail (n + fraction.length) := by
  have hempty : ¬ (whole.isEmpty && fraction.isEmpty) = true ↔ whole ++ fraction ≠ [] := by
    rw [Bool.and_eq_true, List.isEmpty_iff, List.isEmpty_iff, ← List.append_eq_nil_iff]
  unfold scaled?
  rw [Option.ite_none_left_eq_some, hempty]
  apply and_congr_right
  intro _
  cases tail with
  | nil =>
    rw [Option.some.injEq, Prod.mk.injEq]
    constructor
    · rintro ⟨rfl, rfl⟩
      rw [Int.add_left_neg]
      exact ⟨rfl, .plain⟩
    · rintro ⟨rfl, htail⟩
      generalize hm : n + fraction.length = m at htail
      cases htail
      exact ⟨rfl, by omega⟩
  | cons mark cs =>
    rw [Option.ite_none_right_eq_some, Option.map_eq_some_iff]
    constructor
    · rintro ⟨hmark, m, hm, heq⟩
      cases heq
      rw [Int.sub_add_cancel]
      exact ⟨rfl, .marked hmark (exponent?_eq_some_iff.mp hm)⟩
    · rintro ⟨rfl, htail⟩
      cases htail with
      | marked hmark hwrites =>
        refine ⟨hmark, _, exponent?_eq_some_iff.mpr hwrites, ?_⟩
        rw [Int.add_sub_cancel]

theorem decimal?_eq_some_iff : decimal? cs = some (digits, n) ↔ Decimal cs digits n := by
  have hdigits (cs : List Char) : ∀ c ∈ cs.takeWhile isDigit, isDigit c = true := fun _ hc =>
    List.mem_takeWhile_imp hc
  constructor
  · intro h
    by_cases hpoint : ∃ rest, cs.dropWhile isDigit = '.' :: rest
    · obtain ⟨rest, hrest⟩ := hpoint
      rw [decimal?_point hrest] at h
      obtain ⟨hne, rfl, htail⟩ := scaled?_eq_some_iff.mp h
      have hdecimal := Decimal.pointed hne (hdigits cs) (hdigits rest) htail
      rwa [List.takeWhile_append_dropWhile, ← hrest, List.takeWhile_append_dropWhile,
        Int.add_sub_cancel] at hdecimal
    · rw [not_exists] at hpoint
      rw [decimal?_whole hpoint] at h
      obtain ⟨hne, rfl, htail⟩ := scaled?_eq_some_iff.mp h
      rw [List.append_nil] at hne ⊢
      have hdecimal := Decimal.whole hne (hdigits cs) htail
      rwa [List.takeWhile_append_dropWhile, List.length_nil, Int.natCast_zero, Int.add_zero]
        at hdecimal
  · intro h
    cases h with
    | @whole whole tail _ hne hwhole htail =>
      have hrest (rest : List Char) : (whole ++ tail).dropWhile isDigit ≠ '.' :: rest := by
        rw [htail.dropWhile_append hwhole]
        rintro rfl
        cases htail with
        | marked hmark => exact absurd hmark (by decide)
      rw [decimal?_whole hrest, htail.takeWhile_append hwhole, htail.dropWhile_append hwhole,
        scaled?_eq_some_iff, List.append_nil]
      exact ⟨hne, rfl, by rwa [List.length_nil, Int.natCast_zero, Int.add_zero]⟩
    | @pointed whole fraction tail m hne hwhole hfraction htail =>
      have hrest : (whole ++ '.' :: (fraction ++ tail)).dropWhile isDigit =
          '.' :: (fraction ++ tail) := List.dropWhile_append_of_pos hwhole
      have htake : (whole ++ '.' :: (fraction ++ tail)).takeWhile isDigit = whole := by
        rw [List.takeWhile_append_of_pos hwhole]
        exact List.append_nil whole
      rw [decimal?_point hrest, htake, htail.takeWhile_append hfraction,
        htail.dropWhile_append hfraction, scaled?_eq_some_iff, Int.sub_add_cancel]
      exact ⟨hne, rfl, htail⟩

theorem Scaled.point_not_mem (h : Scaled cs n) : '.' ∉ cs := by
  cases h with
  | plain => exact List.not_mem_nil
  | marked hmark hwrites =>
    rw [List.mem_cons, not_or]
    refine ⟨?_, hwrites.point_not_mem⟩
    rintro rfl
    exact absurd hmark (by decide)

theorem Decimal.count_point (h : Decimal cs digits n) : cs.count '.' ≤ 1 := by
  cases h with
  | whole _ hdigits htail =>
    rw [List.count_append, List.count_eq_zero_of_not_mem (point_not_mem_digits hdigits),
      List.count_eq_zero_of_not_mem htail.point_not_mem]
    exact Nat.zero_le 1
  | pointed _ hwhole hfraction htail =>
    rw [List.count_append, List.count_cons_self, List.count_append,
      List.count_eq_zero_of_not_mem (point_not_mem_digits hwhole),
      List.count_eq_zero_of_not_mem (point_not_mem_digits hfraction),
      List.count_eq_zero_of_not_mem htail.point_not_mem]

theorem Decimal.before_point (h : Decimal (cs ++ ['.']) digits n) :
    cs ≠ [] ∧ (∀ c ∈ cs, isDigit c = true) ∧ digits = valueOfDigits cs ∧ n = 0 := by
  generalize hall : cs ++ ['.'] = all at h
  cases h with
  | @whole whole tail _ _ hdigits htail =>
    have hpoint : '.' ∈ whole ++ tail := hall ▸ List.mem_concat_self
    obtain hpoint | hpoint := List.mem_append.mp hpoint
    · exact absurd hpoint (point_not_mem_digits hdigits)
    · exact absurd hpoint htail.point_not_mem
  | @pointed whole fraction tail m hne hwhole hfraction htail =>
    have hbehind : '.' ∉ fraction ++ tail := by
      rw [List.mem_append, not_or]
      exact ⟨point_not_mem_digits hfraction, htail.point_not_mem⟩
    obtain hnil | ⟨behind, c, hconcat⟩ := (fraction ++ tail).eq_nil_or_concat
    · obtain ⟨rfl, rfl⟩ := List.append_eq_nil_iff.mp hnil
      obtain ⟨rfl, -⟩ := List.append_inj' hall rfl
      cases htail
      rw [List.append_nil] at hne ⊢
      exact ⟨hne, hwhole, rfl, rfl⟩
    · rw [hconcat, List.concat_eq_append, ← List.cons_append, ← List.append_assoc] at hall
      obtain ⟨-, hlast⟩ := List.append_inj' hall rfl
      rw [hconcat, List.concat_eq_append, ← hlast] at hbehind
      exact absurd List.mem_concat_self hbehind

theorem parse?_of_point (h : '.' ∈ cs) :
    parse? cs = (decimal? (splitSign cs).2).map fun (digits, exponent) =>
      ofDecimal (splitSign cs).1 digits exponent := by
  have hword (word : String) (hword : '.' ∉ word.toList) :
      String.ofList ((splitSign cs).2.map Char.toLower) ≠ word := by
    rintro rfl
    rw [String.toList_ofList] at hword
    rw [← List.count_pos_iff, ← count_splitSign cs (by decide), List.count_pos_iff] at h
    exact hword (List.mem_map.mpr ⟨'.', h, rfl⟩)
  unfold parse?
  dsimp only
  rw [if_neg, if_neg (hword "nan" (by decide))]
  rw [not_or]
  exact ⟨hword "inf" (by decide), hword "infinity" (by decide)⟩

theorem count_point {x : Binary64} (h : parse? cs = some x) : cs.count '.' ≤ 1 := by
  by_cases hpoint : '.' ∈ cs
  · rw [parse?_of_point hpoint, Option.map_eq_some_iff] at h
    obtain ⟨⟨digits, exponent⟩, hdecimal, -⟩ := h
    rw [← count_splitSign cs (by decide)]
    exact (decimal?_eq_some_iff.mp hdecimal).count_point
  · rw [List.count_eq_zero_of_not_mem hpoint]
    exact Nat.zero_le 1

theorem parse?_before_point {x : Binary64} (h : parse? (cs ++ ['.']) = some x) :
    parse? cs = some x ∧ '.' ∉ cs := by
  have hpoint : '.' ∈ cs ++ ['.'] := List.mem_concat_self
  rw [parse?_of_point hpoint, splitSign_concat cs (by decide), Option.map_eq_some_iff] at h
  obtain ⟨⟨digits, exponent⟩, hdecimal, heq⟩ := h
  obtain ⟨hne, hdigits, rfl, rfl⟩ := (decimal?_eq_some_iff.mp hdecimal).before_point
  refine ⟨(parse?_signed rfl hne hdigits).trans (congrArg some heq), ?_⟩
  rw [← List.count_eq_zero, ← count_splitSign cs (by decide), List.count_eq_zero]
  exact point_not_mem_digits hdigits

end Rollup.Binary64
