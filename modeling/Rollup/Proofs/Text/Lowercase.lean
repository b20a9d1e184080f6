import Rollup.Text.Lowercase
import Rollup.Proofs.Text.Cut

namespace Rollup.Text

def IsMark (c : Char) : Prop :=
  c.toNat < 0x41 ∨ 0x5A < c.toNat ∧ c.toNat < 0x61 ∨ 0x7A < c.toNat ∧ c.toNat < 0x80

instance (c : Char) : Decidable (IsMark c) := inferInstanceAs (Decidable (_ ∨ _))

theorem lowercaseRuns_letters :
    ∀ run ∈ lowercaseRuns, 0x41 ≤ run.1 ∧ run.2.1 ≤ 0x5A ∨ 0x80 ≤ run.1 := by
  decide +kernel

theorem lowercaseRuns_images :
    ∀ run ∈ lowercaseRuns, 0x61 ≤ run.1 + run.2.2.2 ∧
      (run.2.1 + run.2.2.2 ≤ 0x7A ∨ 0x80 ≤ run.1 + run.2.2.2 ∧
        (run.2.1 + run.2.2.2 < 0xD800 ∨
          0xDFFF < run.1 + run.2.2.2 ∧ run.2.1 + run.2.2.2 < 0x110000)) := by
  decide +kernel

theorem lowerSimple_eq (c : Char) :
    lowerSimple c = c ∨ ∃ run ∈ lowercaseRuns, run.1 ≤ c.toNat ∧ c.toNat ≤ run.2.1 ∧
      lowerSimple c = Char.ofNat (c.toNat + run.2.2.2).toNat := by
  unfold lowerSimple
  split
  · next first last step offset hfind =>
    have hrun := List.find?_some hfind
    simp only [Bool.and_eq_true, decide_eq_true_eq] at hrun
    exact .inr ⟨_, List.mem_of_find?_eq_some hfind, hrun.1.1, hrun.1.2, rfl⟩
  · exact .inl rfl

theorem toNat_ofNat {n : Nat} (h : n.isValidChar) : (Char.ofNat n).toNat = n := by
  unfold Char.ofNat
  rw [dif_pos h]
  rfl

theorem lowerSimple_mark {c : Char} (h : IsMark (lowerSimple c)) : lowerSimple c = c := by
  obtain heq | ⟨run, hrun, hfirst, hlast, heq⟩ := lowerSimple_eq c
  · exact heq
  · have himage := lowercaseRuns_images run hrun
    have hvalid : (c.toNat + run.2.2.2).toNat.isValidChar := by
      unfold Nat.isValidChar
      omega
    rw [heq] at h
    unfold IsMark at h
    rw [toNat_ofNat hvalid] at h
    omega

theorem lowerSimple_of_mark {c : Char} (h : IsMark c) : lowerSimple c = c := by
  obtain heq | ⟨run, hrun, hfirst, hlast, _⟩ := lowerSimple_eq c
  · exact heq
  · have hletters := lowercaseRuns_letters run hrun
    unfold IsMark at h
    omega

theorem lowerSimple_eq_mark {c mark : Char} (h : IsMark mark) :
    lowerSimple c = mark ↔ c = mark := by
  constructor
  · rintro rfl
    exact (lowerSimple_mark h).symm
  · rintro rfl
    exact lowerSimple_of_mark h

theorem lowerAt_of_mark {c : Char} (h : IsMark c) (before after : List Char) :
    lowerAt before c after = [c] := by
  unfold lowerAt
  rw [if_neg, if_neg, lowerSimple_of_mark h]
  · rintro rfl
    exact absurd h (by decide)
  · rintro rfl
    exact absurd h (by decide)

theorem mem_lowerAt {mark : Char} (h : IsMark mark) (before : List Char) (c : Char)
    (after : List Char) : mark ∈ lowerAt before c after ↔ c = mark := by
  constructor
  · have hne {other : Char} (hother : ¬ IsMark other) : mark ≠ other := fun he => hother (he ▸ h)
    unfold lowerAt
    split
    · split
      · exact fun hm => absurd (List.mem_singleton.mp hm) (hne (by decide))
      · exact fun hm => absurd (List.mem_singleton.mp hm) (hne (by decide))
    · split
      · intro hm
        obtain hi | hdot := List.mem_cons.mp hm
        · exact absurd hi (hne (by decide))
        · exact absurd (List.mem_singleton.mp hdot) (hne (by decide))
      · exact fun hm => (lowerSimple_eq_mark h).mp (List.mem_singleton.mp hm).symm
  · rintro rfl
    rw [lowerAt_of_mark h]
    exact List.mem_singleton_self c

theorem lowerAt_ne_nil (before : List Char) (c : Char) (after : List Char) :
    lowerAt before c after ≠ [] := by
  unfold lowerAt
  split
  · split <;> simp
  · split <;> simp

theorem lowerFrom_eq_nil {before cs : List Char} : lowerFrom before cs = [] ↔ cs = [] := by
  cases cs with
  | nil => simp [lowerFrom]
  | cons c cs => simp [lowerFrom, lowerAt_ne_nil]

theorem mem_lowerFrom {mark : Char} (h : IsMark mark) (before cs : List Char) :
    mark ∈ lowerFrom before cs ↔ mark ∈ cs := by
  induction cs generalizing before with
  | nil => exact Iff.rfl
  | cons c cs ih =>
    rw [lowerFrom, List.mem_append, mem_lowerAt h, ih, List.mem_cons, eq_comm]

/-- A mark behind which no character can see another one. -/
structure Barrier (c : Char) : Prop where
  mark : IsMark c
  uncased : isCased c = false
  seen : isCaseIgnorable c = false

theorem meetsCased_barrier {c : Char} (h : Barrier c) (xs ys : List Char) :
    meetsCased (xs ++ c :: ys) = meetsCased xs := by
  induction xs with
  | nil => simp [meetsCased, h.seen, h.uncased]
  | cons x xs ih =>
    unfold meetsCased at ih ⊢
    by_cases hx : isCaseIgnorable x
    · simpa only [List.cons_append, List.dropWhile_cons, hx, if_true] using ih
    · simp only [List.cons_append, List.dropWhile_cons, hx, if_false, Bool.false_eq_true]

theorem lowerFrom_behind {c : Char} (h : Barrier c) (xs before cs : List Char) :
    lowerFrom (xs ++ c :: before) cs = lowerFrom xs cs := by
  induction cs generalizing xs with
  | nil => rfl
  | cons x cs ih =>
    have hat : lowerAt (xs ++ c :: before) x cs = lowerAt xs x cs := by
      simp only [lowerAt, meetsCased_barrier h]
    rw [lowerFrom, lowerFrom, hat, ← List.cons_append, ih]

theorem lowerFrom_barrier {c : Char} (h : Barrier c) (before xs ys : List Char) :
    lowerFrom before (xs ++ c :: ys) = lowerFrom before xs ++ c :: lower ys := by
  induction xs generalizing before with
  | nil =>
    have hbehind : lowerFrom (c :: before) ys = lower ys := lowerFrom_behind h [] before ys
    simp only [List.nil_append, lowerFrom, lowerAt_of_mark h.mark, List.singleton_append, hbehind]
  | cons x xs ih =>
    have hat : lowerAt before x (xs ++ c :: ys) = lowerAt before x xs := by
      simp only [lowerAt, meetsCased_barrier h]
    rw [List.cons_append, lowerFrom, lowerFrom, hat, ih, List.append_assoc]

/-- One letter for both lowercase forms of sigma. -/
def joinSigma (c : Char) : Char := if c = 'ς' then 'σ' else c

theorem joinSigma_eq {mark : Char} (h : mark ≠ 'σ' ∧ mark ≠ 'ς') (c : Char) :
    joinSigma c = mark ↔ c = mark := by
  unfold joinSigma
  split
  · next hc =>
    subst hc
    exact ⟨fun he => absurd he.symm h.1, fun he => absurd he.symm h.2⟩
  · exact Iff.rfl

def lowerAlone (c : Char) : List Char := (lowerAt [] c []).map joinSigma

theorem lowerAt_joinSigma (before : List Char) (c : Char) (after : List Char) :
    (lowerAt before c after).map joinSigma = lowerAlone c := by
  unfold lowerAlone lowerAt
  by_cases hc : c = 'Σ'
  · rw [if_pos hc, if_pos hc]
    split <;> rfl
  · rw [if_neg hc, if_neg hc]

theorem lowerFrom_joinSigma (before cs : List Char) :
    (lowerFrom before cs).map joinSigma = cs.flatMap lowerAlone := by
  induction cs generalizing before with
  | nil => rfl
  | cons c cs ih =>
    rw [lowerFrom, List.map_append, lowerAt_joinSigma, ih, List.flatMap_cons]

theorem splitOn_lower {mark : Char} (h : IsMark mark) (cs : List Char) :
    ((lower cs).splitOn mark).map (List.map joinSigma) =
      ((cs.splitOn mark).map lower).map (List.map joinSigma) := by
  have hsigma : mark ≠ 'σ' ∧ mark ≠ 'ς' := by
    constructor <;> rintro rfl <;> exact absurd h (by decide)
  have hmark : lowerAlone mark = [mark] := by
    rw [lowerAlone, lowerAt_of_mark h, List.map_singleton, (joinSigma_eq hsigma mark).mpr rfl]
  have hother (c : Char) (hc : c ≠ mark) : mark ∉ lowerAlone c := by
    intro hm
    obtain ⟨x, hx, hxm⟩ := List.mem_map.mp hm
    rw [(joinSigma_eq hsigma x).mp hxm] at hx
    exact hc ((mem_lowerAt h _ _ _).mp hx)
  calc ((lower cs).splitOn mark).map (List.map joinSigma)
      = ((lower cs).map joinSigma).splitOn mark := (splitOn_map (joinSigma_eq hsigma) _).symm
    _ = (cs.splitOn mark).map (List.flatMap lowerAlone) := by
        rw [lower, lowerFrom_joinSigma, splitOn_flatMap hmark hother]
    _ = ((cs.splitOn mark).map lower).map (List.map joinSigma) := by
        rw [List.map_map]
        exact List.map_congr_left fun piece _ => (lowerFrom_joinSigma [] piece).symm

end Rollup.Text
