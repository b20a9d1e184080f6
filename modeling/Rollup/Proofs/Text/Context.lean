import Rollup.Proofs.Text.Lowercase

namespace Rollup.Text

def endsWord (before after : List Char) : Bool := meetsCased before && !meetsCased after

/-- The lowercase form of a text that stands after `before`, nearest first, and ahead of `after`. -/
def lowerWithin (before : List Char) : List Char → List Char → List Char
  | [], _ => []
  | c :: text, after => lowerAt before c (text ++ after) ++ lowerWithin (c :: before) text after

/-- Every capital sigma of a text ends a word in its context exactly when it does on its own. -/
def SigmasKept (before text after : List Char) : Prop :=
  ∀ left right, text = left ++ 'Σ' :: right →
    endsWord (left.reverse ++ before) (right ++ after) = endsWord left.reverse right

theorem lowerFrom_append (before text after : List Char) :
    lowerFrom before (text ++ after) =
      lowerWithin before text after ++ lowerFrom (text.reverse ++ before) after := by
  induction text generalizing before with
  | nil => rfl
  | cons c text ih =>
    rw [List.cons_append, lowerFrom, lowerWithin, ih, List.append_assoc, List.reverse_cons,
      List.append_assoc, List.singleton_append]

theorem lowerWithin_infix (before text after : List Char) :
    lowerWithin before.reverse text after <:+: lower (before ++ text ++ after) := by
  rw [lower, List.append_assoc, lowerFrom_append, lowerFrom_append, List.append_nil]
  exact List.infix_append' ..

theorem length_lowerAt (before : List Char) (c : Char) (after : List Char) :
    (lowerAt before c after).length = (lowerAlone c).length := by
  rw [← lowerAt_joinSigma before c after, List.length_map]

theorem lowerAt_eq_iff {before before' after after' : List Char} {c : Char} :
    lowerAt before c after = lowerAt before' c after' ↔
      (c = 'Σ' → endsWord before after = endsWord before' after') := by
  by_cases hc : c = 'Σ'
  · subst hc
    simp only [lowerAt, if_true, forall_const]
    change (if endsWord before after then ['ς'] else ['σ']) =
      (if endsWord before' after' then ['ς'] else ['σ']) ↔ _
    cases endsWord before after <;> cases endsWord before' after' <;> decide
  · have hother (before after : List Char) :
        lowerAt before c after = if c = 'İ' then ['i', '\u0307'] else [lowerSimple c] := by
      rw [lowerAt, if_neg hc]
    simp [hother, hc]

theorem lowerWithin_eq_lowerFrom_iff {seen before text after : List Char} :
    lowerWithin (seen ++ before) text after = lowerFrom seen text ↔
      ∀ left right, text = left ++ 'Σ' :: right →
        endsWord (left.reverse ++ (seen ++ before)) (right ++ after) =
          endsWord (left.reverse ++ seen) right := by
  induction text generalizing seen with
  | nil => simp [lowerWithin, lowerFrom]
  | cons c text ih =>
    have hcut : lowerWithin (seen ++ before) (c :: text) after = lowerFrom seen (c :: text) ↔
        lowerAt (seen ++ before) c (text ++ after) = lowerAt seen c text ∧
          lowerWithin (c :: seen ++ before) text after = lowerFrom (c :: seen) text := by
      rw [lowerWithin, lowerFrom]
      constructor
      · intro h
        -- Both forms of a character have the same length.
        exact List.append_inj h (by rw [length_lowerAt, length_lowerAt])
      · rintro ⟨hat, hrest⟩
        rw [hat, ← hrest]
        rfl
    rw [hcut, lowerAt_eq_iff, ih]
    constructor
    · rintro ⟨hfirst, hrest⟩ left right htext
      cases left with
      | nil =>
        obtain ⟨hc, rfl⟩ := List.cons.inj htext
        exact hfirst hc
      | cons x left =>
        obtain ⟨rfl, htail⟩ := List.cons.inj htext
        have hkept := hrest left right htail
        rw [List.reverse_cons, List.append_assoc, List.append_assoc]
        exact hkept
    · intro h
      refine ⟨fun hc => h [] text (by rw [hc]; rfl), fun left right htext => ?_⟩
      have hkept := h (c :: left) right (by rw [htext]; rfl)
      rw [List.reverse_cons, List.append_assoc, List.append_assoc] at hkept
      exact hkept

theorem lowerWithin_eq_lower_iff {before text after : List Char} :
    lowerWithin before text after = lower text ↔ SigmasKept before text after := by
  have h := @lowerWithin_eq_lowerFrom_iff [] before text after
  simp only [List.nil_append, List.append_nil] at h
  exact h

instance (before text after : List Char) : Decidable (SigmasKept before text after) :=
  decidable_of_iff _ lowerWithin_eq_lower_iff

theorem occursIn_iff_infix {needle text : List Char} :
    occursIn needle text = true ↔ needle <:+: text := by
  induction text with
  | nil => rw [occursIn, List.isEmpty_iff, List.infix_nil]
  | cons c text ih =>
    rw [occursIn, Bool.or_eq_true, List.isPrefixOf_iff_prefix, ih, List.infix_cons_iff]

end Rollup.Text
