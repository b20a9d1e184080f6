import Rollup.Text.Digits

namespace Rollup.Text

theorem natural_eq (n : Nat) : natural n = Nat.toDigits 10 n := by
  rw [natural, Nat.toString_eq_ofList_toDigits, String.toList_ofList]

theorem natural_ne_nil (n : Nat) : natural n ≠ [] := by
  rw [natural_eq]
  exact Nat.toDigits_ne_nil

theorem isDigit_of_mem_natural {n : Nat} {c : Char} (h : c ∈ natural n) : isDigit c = true := by
  rw [natural_eq] at h
  exact Nat.isDigit_of_mem_toDigits (by decide) (by decide) h

theorem valueOfDigits_natural (n : Nat) : valueOfDigits (natural n) = n := by
  rw [natural_eq, valueOfDigits]
  exact Nat.ofDigitChars_eq_foldl.symm.trans Nat.ofDigitChars_ten_toDigits

theorem natural_mul_tenTo {n : Nat} (h : 0 < n) (places : Nat) :
    natural (n * tenTo places) = natural n ++ List.replicate places '0' := by
  induction places with
  | zero => simp [tenTo_zero]
  | succ places ih =>
    have hpos : 0 < n * tenTo places := Nat.mul_pos h (tenTo_pos places)
    have hdigit := Nat.toDigits_append_toDigits (b := 10) (d := 0) (by decide) hpos (by decide)
    rw [Nat.toDigits_zero, Nat.add_zero, ← natural_eq, ih, ← natural_eq] at hdigit
    rw [tenTo_succ, ← Nat.mul_assoc, Nat.mul_comm _ 10, ← hdigit, List.append_assoc,
      ← List.replicate_succ']

def zeros (places : Nat) : List Char :=
  if places = 0 then [] else '.' :: List.replicate places '0'

theorem withPlaces_mul_tenTo (n places : Nat) :
    withPlaces (n * tenTo places) places = natural n ++ zeros places := by
  have hpadded : List.replicate (places + 1 - (natural (n * tenTo places)).length) '0' ++
      natural (n * tenTo places) = natural n ++ List.replicate places '0' := by
    obtain rfl | hpos := Nat.eq_zero_or_pos n
    · have hzero : natural 0 = ['0'] := by decide
      rw [Nat.zero_mul, hzero, List.singleton_append, ← List.replicate_succ]
      exact List.replicate_succ'.symm
    · have hlength := List.length_pos_iff.mpr (natural_ne_nil n)
      rw [natural_mul_tenTo hpos, List.length_append, List.length_replicate,
        Nat.sub_eq_zero_of_le (by omega), List.replicate_zero, List.nil_append]
  rw [withPlaces]
  simp only [hpadded]
  rw [zeros]
  split
  · next hzero => rw [hzero, List.replicate_zero]
  · rw [List.length_append, List.length_replicate, Nat.add_sub_cancel, List.take_left,
      List.drop_left]

theorem mem_withPlaces {n places : Nat} {c : Char} (h : c ∈ withPlaces n places) :
    isDigit c = true ∨ c = '.' := by
  have hdigits : ∀ c ∈ List.replicate (places + 1 - (natural n).length) '0' ++ natural n,
      isDigit c = true := by
    intro c hc
    obtain hc | hc := List.mem_append.mp hc
    · rw [List.eq_of_mem_replicate hc]
      decide
    · exact isDigit_of_mem_natural hc
  rw [withPlaces] at h
  split at h
  · exact .inl (hdigits c h)
  · obtain h | h := List.mem_append.mp h
    · exact .inl (hdigits c (List.mem_of_mem_take h))
    · obtain rfl | h := List.mem_cons.mp h
      · exact .inr rfl
      · exact .inl (hdigits c (List.mem_of_mem_drop h))

theorem zeros_append (places more : Nat) (h : places = 0 → more = 0) :
    zeros places ++ List.replicate more '0' = zeros (places + more) := by
  rw [zeros, zeros]
  by_cases hzero : places = 0
  · rw [hzero, h hzero]
    rfl
  · rw [if_neg hzero, if_neg (by omega), List.cons_append, List.replicate_append_replicate]

theorem toList_toString (n : Int) :
    (toString n).toList = (if n < 0 then ['-'] else []) ++ natural n.natAbs := by
  have hnatural (m : Nat) : m.repr.toList = natural m := rfl
  rw [Int.toString_eq_repr, Int.repr_eq_if]
  by_cases hn : n < 0
  · rw [if_neg (by omega), if_pos hn, String.toList_append, hnatural,
      show (-n).toNat = n.natAbs by omega]
    rfl
  · rw [if_pos (by omega), if_neg hn, hnatural, show n.toNat = n.natAbs by omega]
    rfl

/-- A text that writes an integer: digits, which a sign may stand before. -/
inductive Writes : List Char → Int → Prop
  | unsigned {digits : List Char} (hne : digits ≠ []) (hdigits : ∀ c ∈ digits, isDigit c = true) :
      Writes digits (valueOfDigits digits)
  | plus {digits : List Char} (hne : digits ≠ []) (hdigits : ∀ c ∈ digits, isDigit c = true) :
      Writes ('+' :: digits) (valueOfDigits digits)
  | minus {digits : List Char} (hne : digits ≠ []) (hdigits : ∀ c ∈ digits, isDigit c = true) :
      Writes ('-' :: digits) (-valueOfDigits digits)

theorem writes_toString (n : Int) : Writes (toString n).toList n := by
  have hdigits : ∀ c ∈ natural n.natAbs, isDigit c = true := fun _ hc => isDigit_of_mem_natural hc
  have hvalue := valueOfDigits_natural n.natAbs
  rw [toList_toString]
  by_cases hn : n < 0
  · have h := Writes.minus (natural_ne_nil n.natAbs) hdigits
    rw [hvalue, show -(n.natAbs : Int) = n by omega] at h
    rwa [if_pos hn]
  · have h := Writes.unsigned (natural_ne_nil n.natAbs) hdigits
    rw [hvalue, show (n.natAbs : Int) = n by omega] at h
    rwa [if_neg hn]

theorem Writes.unique {cs : List Char} {m n : Int} (h : Writes cs m) (h' : Writes cs n) :
    m = n := by
  have hplus : isDigit '+' = false := by decide
  have hminus : isDigit '-' = false := by decide
  cases h with
  | unsigned _ hdigits =>
    cases h' with
    | unsigned => rfl
    | plus => simp [hplus] at hdigits
    | minus => simp [hminus] at hdigits
  | plus =>
    cases h' with
    | unsigned _ hdigits => simp [hplus] at hdigits
    | plus => rfl
  | minus =>
    cases h' with
    | unsigned _ hdigits => simp [hminus] at hdigits
    | minus => rfl

theorem Writes.plain {cs : List Char} {n : Int} (h : Writes cs n) :
    cs ≠ [] ∧ ∀ c ∈ cs, isDigit c = true ∨ c = '+' ∨ c = '-' := by
  cases h with
  | unsigned hne hdigits => exact ⟨hne, fun c hc => .inl (hdigits c hc)⟩
  | plus hne hdigits | minus hne hdigits =>
    refine ⟨List.cons_ne_nil _ _, fun c hc => ?_⟩
    obtain rfl | hc := List.mem_cons.mp hc
    · simp
    · exact .inl (hdigits c hc)

theorem point_not_mem_digits {digits : List Char} (h : ∀ c ∈ digits, isDigit c = true) :
    '.' ∉ digits := fun hc => absurd (h _ hc) (by decide)

theorem Writes.point_not_mem {cs : List Char} {n : Int} (h : Writes cs n) : '.' ∉ cs := by
  intro hc
  obtain hdigit | hsign | hsign := h.plain.2 _ hc
  · exact absurd hdigit (by decide)
  · exact absurd hsign (by decide)
  · exact absurd hsign (by decide)

theorem toLower_of_isDigit {c : Char} (h : isDigit c = true) : c.toLower = c := by
  have hlast : c.val ≤ '9'.val := of_decide_eq_true (Bool.and_eq_true_iff.mp h).2
  have hnot : ¬ (c.val ≥ 'A'.val ∧ c.val ≤ 'Z'.val) := fun hupper =>
    absurd (UInt32.le_trans hupper.1 hlast) (by decide)
  exact dif_neg hnot

theorem map_toLower_digits {digits : List Char} (h : ∀ c ∈ digits, isDigit c = true) :
    digits.map Char.toLower = digits := by
  rw [List.map_congr_left fun c hc => toLower_of_isDigit (h c hc), List.map_id']

theorem splitSign_cons (c : Char) (cs : List Char) :
    splitSign (c :: cs) =
      if c = '-' then (true, cs) else if c = '+' then (false, cs) else (false, c :: cs) := by
  by_cases hminus : c = '-'
  · rw [if_pos hminus, hminus]
    rfl
  · rw [if_neg hminus]
    by_cases hplus : c = '+'
    · rw [if_pos hplus, hplus]
      rfl
    · rw [if_neg hplus, splitSign]
      · exact fun rest h => hminus (List.cons.inj h).1
      · exact fun rest h => hplus (List.cons.inj h).1

theorem splitSign_concat (cs : List Char) {c : Char} (h : c ≠ '-' ∧ c ≠ '+') :
    splitSign (cs ++ [c]) = ((splitSign cs).1, (splitSign cs).2 ++ [c]) := by
  cases cs with
  | nil =>
    rw [List.nil_append, splitSign_cons, if_neg h.1, if_neg h.2]
    rfl
  | cons first cs =>
    rw [List.cons_append, splitSign_cons, splitSign_cons]
    split
    · rfl
    · split <;> rfl

theorem count_splitSign (cs : List Char) {c : Char} (h : c ≠ '-' ∧ c ≠ '+') :
    (splitSign cs).2.count c = cs.count c := by
  cases cs with
  | nil => rfl
  | cons first cs =>
    rw [splitSign_cons]
    split
    · next hfirst => rw [hfirst, List.count_cons_of_ne (Ne.symm h.1)]
    · split
      · next hfirst => rw [hfirst, List.count_cons_of_ne (Ne.symm h.2)]
      · rfl

end Rollup.Text
