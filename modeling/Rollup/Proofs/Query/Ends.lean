import Rollup.Proofs.Binary64.Grammar
import Rollup.Proofs.Query.Substring

namespace Rollup.Pattern

/-- An end of a range: nothing, which leaves it open, or a number. -/
inductive End : List Char → Option Binary64 → Prop
  | left_open : End [] none
  | number {cs : List Char} {x : Binary64} (h : Binary64.parse? cs = some x) : End cs (some x)

/-- Two ends around two points, at least one of them a number. The lower one has no point at its
end. -/
inductive Ranges : List Char → Option Binary64 → Option Binary64 → Prop
  | intro {low high : List Char} {least greatest : Option Binary64} (hlow : End low least)
      (hhigh : End high greatest) (hlast : low.getLast? ≠ some '.')
      (hnumber : least ≠ none ∨ greatest ≠ none) :
      Ranges (low ++ ['.', '.'] ++ high) least greatest

variable {text low high : List Char} {least greatest : Option Binary64}

theorem bound?_eq_some_iff : bound? text = some least ↔ End text least := by
  cases text with
  | nil =>
    constructor
    · intro h
      cases h
      exact .left_open
    · intro h
      cases h with
      | left_open => rfl
      | number h => cases h
  | cons c text =>
    have hnumber : bound? (c :: text) = (Binary64.parse? (c :: text)).map some := rfl
    rw [hnumber, Option.map_eq_some_iff]
    constructor
    · rintro ⟨x, hx, rfl⟩
      exact .number hx
    · intro h
      cases h with
      | number hx => exact ⟨_, hx, rfl⟩

theorem End.count_point (h : End text least) : text.count '.' ≤ 1 := by
  cases h with
  | left_open => exact Nat.zero_le 1
  | number h => exact Binary64.count_point h

/-- In a text with one point at most, two points can only come about at its end. -/
theorem End.no_pair_iff (h : End low least) :
    ¬ ['.', '.'] <:+: low ++ ['.'] ↔ low.getLast? ≠ some '.' := by
  rw [List.infix_concat_iff, not_or]
  -- Inside of it they would be two points of one number.
  have hinside : ¬ ['.', '.'] <:+: low := fun hoccurs => by
    have hcount := (hoccurs.sublist.count_le '.').trans h.count_point
    exact absurd hcount (by decide)
  rw [and_iff_left hinside, not_iff_not]
  constructor
  · rintro ⟨before, hbefore⟩
    have hlow : before ++ ['.'] ++ ['.'] = low ++ ['.'] := by
      rw [List.append_assoc]
      exact hbefore
    rw [← List.append_cancel_right hlow, List.getLast?_concat]
  · intro hlast
    obtain ⟨before, rfl⟩ := List.getLast?_eq_some_iff.mp hlast
    exact ⟨before, by simp⟩

theorem parse_of_cut (hcut : Text.cutFirst? ['.', '.'] text = some (low, high)) :
    parse text = .between least greatest ↔
      End low least ∧ End high greatest ∧ (least ≠ none ∨ greatest ≠ none) := by
  rw [← bound?_eq_some_iff, ← bound?_eq_some_iff]
  unfold parse
  rw [hcut]
  dsimp only
  generalize bound? low = lower
  generalize bound? high = upper
  rcases lower with _ | _ | x <;> rcases upper with _ | _ | y <;> grind

theorem parse_eq_between_iff :
    parse text = .between least greatest ↔ Ranges text least greatest := by
  constructor
  · intro h
    cases hcut : Text.cutFirst? ['.', '.'] text with
    | none =>
      unfold parse at h
      rw [hcut] at h
      cases h
    | some parts =>
      obtain ⟨low, high⟩ := parts
      obtain ⟨hlow, hhigh, hnumber⟩ := (parse_of_cut hcut).mp h
      obtain ⟨rfl, hfirst⟩ := (Text.cutFirst?_eq_some_iff (List.cons_ne_nil _ _)).mp hcut
      exact .intro hlow hhigh (hlow.no_pair_iff.mp hfirst) hnumber
  · rintro ⟨hlow, hhigh, hlast, hnumber⟩
    refine (parse_of_cut ?_).mpr ⟨hlow, hhigh, hnumber⟩
    exact (Text.cutFirst?_eq_some_iff (List.cons_ne_nil _ _)).mpr
      ⟨rfl, hlow.no_pair_iff.mpr hlast⟩

theorem End.unique {other : Option Binary64} (h : End text least) (h' : End text other) :
    least = other :=
  Option.some.inj ((bound?_eq_some_iff.mpr h).symm.trans (bound?_eq_some_iff.mpr h'))

theorem parse_point_iff (h : End (low ++ ['.']) least) {lower : Option Binary64} :
    parse (low ++ ['.'] ++ ['.', '.'] ++ high) = .between lower greatest ↔
      lower = least ∧ End ('.' :: high) greatest := by
  have hlow : End low least ∧ low.getLast? ≠ some '.' ∧ least ≠ none := by
    generalize hwritten : low ++ ['.'] = written at h
    cases h with
    | left_open => exact absurd hwritten (List.concat_ne_nil _ _)
    | number hx =>
      rw [← hwritten] at hx
      obtain ⟨hlow, hpoint⟩ := Binary64.parse?_before_point hx
      exact ⟨.number hlow, fun hlast => hpoint (List.mem_of_getLast? hlast), nofun⟩
  obtain ⟨hlow, hlast, hnumber⟩ := hlow
  have hsame : low ++ ['.'] ++ ['.', '.'] ++ high = low ++ ['.', '.'] ++ '.' :: high := by simp
  have hcut : Text.cutFirst? ['.', '.'] (low ++ ['.', '.'] ++ '.' :: high) =
      some (low, '.' :: high) :=
    (Text.cutFirst?_eq_some_iff (List.cons_ne_nil _ _)).mpr ⟨rfl, hlow.no_pair_iff.mpr hlast⟩
  rw [hsame, parse_of_cut hcut]
  constructor
  · rintro ⟨hlower, hhigh, -⟩
    exact ⟨hlower.unique hlow, hhigh⟩
  · rintro ⟨rfl, hhigh⟩
    exact ⟨hlow, hhigh, .inl hnumber⟩

/-- A pattern is the range between the ends that it is written with if its lower end has no point at
its end, and a text to look for if it is not written in this way. Where the lower end has a point at
its end, the upper one is read with a point ahead of it, so that the range is the one that is
written only if that point makes no difference. -/
theorem parse_reads_ends (text : List Char) :
    (∀ least greatest, parse text = .between least greatest ↔ Ranges text least greatest) ∧
    ((∀ least greatest, ¬ Ranges text least greatest) →
      parse text = .containing (Text.lower text)) ∧
    ∀ low high least, text = low ++ ['.', '.'] ++ high → End low least →
      (low.getLast? = some '.' → ∀ lower greatest,
        parse text = .between lower greatest ↔ lower = least ∧ End ('.' :: high) greatest) ∧
      ∀ greatest, End high greatest → least ≠ none ∨ greatest ≠ none →
        (parse text = .between least greatest ↔
          (low.getLast? = some '.' → End ('.' :: high) greatest)) := by
  refine ⟨fun _ _ => parse_eq_between_iff, fun h => ?_, ?_⟩
  · apply parse_eq_containing
    intro least greatest hparse
    exact h least greatest (parse_eq_between_iff.mp hparse)
  · rintro low high least rfl hlow
    have hpoint (hlast : low.getLast? = some '.') (lower greatest : Option Binary64) :
        parse (low ++ ['.', '.'] ++ high) = .between lower greatest ↔
          lower = least ∧ End ('.' :: high) greatest := by
      obtain ⟨before, rfl⟩ := List.getLast?_eq_some_iff.mp hlast
      exact parse_point_iff hlow
    refine ⟨hpoint, fun greatest hhigh hnumber => ?_⟩
    by_cases hlast : low.getLast? = some '.'
    · rw [hpoint hlast, and_iff_right rfl, forall_prop_of_true hlast]
    · exact iff_of_true (parse_eq_between_iff.mpr (.intro hlow hhigh hlast hnumber))
        fun h => absurd h hlast

/-- Three points between two numbers can be taken apart in two ways, of which one is read. Three
points behind a number can in one way, which is not read. -/
theorem point_taken_from_end :
    let one := Binary64.ofInt 1
    let two := Binary64.ofInt 2
    let fifth := Binary64.ofDecimal false 2 (-1)
    End ['1', '.'] (some one) ∧ End ['2'] (some two) ∧
      End ['1'] (some one) ∧ End ['.', '2'] (some fifth) ∧
      parse (['1', '.'] ++ ['.', '.'] ++ ['2']) = .between (some one) (some fifth) ∧
      fifth ≠ two ∧
      parse (['1', '.'] ++ ['.', '.'] ++ []) = .containing ['1', '.', '.', '.'] := by
  intro one two fifth
  refine ⟨.number ?_, .number ?_, .number ?_, .number ?_, ?_, ?_, ?_⟩ <;> decide +kernel

end Rollup.Pattern
