import Mathlib.Data.List.TakeWhile
import Rollup.Proofs.Text.Cut
import Rollup.Proofs.Text.Decimal
import Rollup.Text.Blank
import Rollup.Text.Lowercase

namespace Rollup.Text

def Alike (cs ds : List Char) : Prop := cs.map Char.toLower = ds.map Char.toLower

instance (cs ds : List Char) : Decidable (Alike cs ds) := inferInstanceAs (Decidable (_ = _))

theorem Alike.apply {α : Type} (f : List Char → α) (hf : ∀ cs, f (cs.map Char.toLower) = f cs)
    {cs ds : List Char} (h : Alike cs ds) : f cs = f ds := by
  rw [← hf cs, h, hf]

section Letters

variable {c mark : Char}

theorem toNat_of_isUpper (h : c.isUpper = true) : 0x41 ≤ c.toNat ∧ c.toNat ≤ 0x5A :=
  of_decide_eq_true h

theorem toLower_of_not_isUpper (h : c.isUpper = false) : c.toLower = c :=
  dif_neg (of_decide_eq_false h)

theorem toLower_capital : ∀ i < 26, (Char.ofNat (0x41 + i)).toLower = Char.ofNat (0x61 + i) := by
  decide

/-- What does not tell the capitals from their small letters sees no case at all. -/
theorem comp_toLower {α : Type} {f : Char → α}
    (h : ∀ i < 26, f (Char.ofNat (0x61 + i)) = f (Char.ofNat (0x41 + i))) :
    f ∘ Char.toLower = f := by
  funext c
  rw [Function.comp_apply]
  -- Only a capital is changed, and it is one of 26.
  cases hupper : c.isUpper with
  | true =>
    obtain ⟨hfirst, hlast⟩ := toNat_of_isUpper hupper
    have hletter : c.toNat - 0x41 < 26 := by omega
    have hc : Char.ofNat (0x41 + (c.toNat - 0x41)) = c := by
      rw [Nat.add_sub_cancel' hfirst, Char.ofNat_toNat]
    rw [← hc, toLower_capital _ hletter, h _ hletter]
  | false => rw [toLower_of_not_isUpper hupper]

theorem isAlpha_comp_toLower : Char.isAlpha ∘ Char.toLower = Char.isAlpha :=
  comp_toLower (by decide)

theorem toLower_comp_toLower : Char.toLower ∘ Char.toLower = Char.toLower :=
  comp_toLower (by decide)

theorem isBlank_comp_toLower : isBlank ∘ Char.toLower = isBlank := comp_toLower (by decide +kernel)

theorem isDigit_comp_toLower : isDigit ∘ Char.toLower = isDigit := comp_toLower (by decide +kernel)

theorem isCased_comp_toLower : isCased ∘ Char.toLower = isCased := comp_toLower (by decide +kernel)

theorem isCaseIgnorable_comp_toLower : isCaseIgnorable ∘ Char.toLower = isCaseIgnorable :=
  comp_toLower (by decide +kernel)

theorem lowerSimple_comp_toLower : lowerSimple ∘ Char.toLower = lowerSimple :=
  comp_toLower (by decide +kernel)

theorem toLower_of_not_isAlpha (h : c.isAlpha = false) : c.toLower = c :=
  toLower_of_not_isUpper (Bool.or_eq_false_iff.mp h).1

theorem toLower_eq_iff (h : mark.isAlpha = false) : c.toLower = mark ↔ c = mark := by
  constructor
  · rintro rfl
    have halpha : c.toLower.isAlpha = c.isAlpha := congrFun isAlpha_comp_toLower c
    exact (toLower_of_not_isAlpha (halpha ▸ h)).symm
  · rintro rfl
    exact toLower_of_not_isAlpha h

theorem map_toLower_map_toLower (cs : List Char) :
    (cs.map Char.toLower).map Char.toLower = cs.map Char.toLower := by
  rw [List.map_map, toLower_comp_toLower]

end Letters

section Digits

theorem takeWhile_isDigit_toLower (cs : List Char) :
    (cs.map Char.toLower).takeWhile isDigit = cs.takeWhile isDigit := by
  rw [List.takeWhile_map, isDigit_comp_toLower]
  exact map_toLower_digits fun c hc => List.mem_takeWhile_imp hc

theorem dropWhile_isDigit_toLower (cs : List Char) :
    (cs.map Char.toLower).dropWhile isDigit = (cs.dropWhile isDigit).map Char.toLower := by
  rw [List.dropWhile_map, isDigit_comp_toLower]

theorem splitSign_toLower (cs : List Char) :
    splitSign (cs.map Char.toLower) =
      ((splitSign cs).1, (splitSign cs).2.map Char.toLower) := by
  cases cs with
  | nil => rfl
  | cons c cs =>
    have hminus : c.toLower = '-' ↔ c = '-' := toLower_eq_iff (by decide)
    have hplus : c.toLower = '+' ↔ c = '+' := toLower_eq_iff (by decide)
    simp only [List.map_cons, splitSign_cons, hminus, hplus]
    split
    · rfl
    · split <;> rfl

end Digits

section Words

theorem words_toLower (cs : List Char) :
    words (cs.map Char.toLower) = (words cs).map (List.map Char.toLower) := by
  have hempty : ((!·.isEmpty) ∘ List.map Char.toLower : List Char → Bool) = (!·.isEmpty) := by
    funext word
    rw [Function.comp_apply, List.isEmpty_map]
  rw [words, words, splitOnP_map, isBlank_comp_toLower, List.filter_map, hempty]

theorem cutFirst?_toLower (sep : List Char) (hsep : ∀ c ∈ sep, c.isAlpha = false)
    (cs : List Char) :
    cutFirst? sep (cs.map Char.toLower) =
      (cutFirst? sep cs).map (Prod.map (List.map Char.toLower) (List.map Char.toLower)) :=
  cutFirst?_map (fun c hc _ => toLower_eq_iff (hsep c hc)) cs

end Words

section Lowercase

theorem meetsCased_toLower (cs : List Char) :
    meetsCased (cs.map Char.toLower) = meetsCased cs := by
  unfold meetsCased
  rw [List.dropWhile_map, isCaseIgnorable_comp_toLower]
  cases cs.dropWhile isCaseIgnorable with
  | nil => rfl
  | cons c cs => exact congrFun isCased_comp_toLower c

theorem lowerAt_toLower (before : List Char) (c : Char) (after : List Char) :
    lowerAt (before.map Char.toLower) c.toLower (after.map Char.toLower) =
      lowerAt before c after := by
  have hsimple : lowerSimple c.toLower = lowerSimple c := congrFun lowerSimple_comp_toLower c
  have hsigma : c.toLower = 'Σ' ↔ c = 'Σ' := toLower_eq_iff (by decide)
  have hdotted : c.toLower = 'İ' ↔ c = 'İ' := toLower_eq_iff (by decide)
  simp only [lowerAt, hsigma, hdotted, meetsCased_toLower, hsimple]

theorem lowerFrom_toLower (before cs : List Char) :
    lowerFrom (before.map Char.toLower) (cs.map Char.toLower) = lowerFrom before cs := by
  induction cs generalizing before with
  | nil => rfl
  | cons c cs ih => rw [List.map_cons, lowerFrom, lowerFrom, lowerAt_toLower, ← List.map_cons, ih]

theorem lower_toLower (cs : List Char) : lower (cs.map Char.toLower) = lower cs :=
  lowerFrom_toLower [] cs

theorem Alike.lower {cs ds : List Char} (h : Alike cs ds) : lower cs = Text.lower ds :=
  h.apply Text.lower lower_toLower

end Lowercase

end Rollup.Text
