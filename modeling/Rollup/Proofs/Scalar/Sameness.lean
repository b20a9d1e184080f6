import Rollup.Grouping
import Rollup.Proofs.Binary64.Whole
import Rollup.Proofs.Scalar.Order

namespace Rollup

namespace Slot

theorem ofReal_cases (x : Binary64) : ofReal x = .fractional x ∨ ∃ n : Int64, ofReal x = .whole n := by
  unfold ofReal
  split
  · split
    · exact .inr ⟨_, rfl⟩
    · exact .inl rfl
  · exact .inl rfl

theorem ofReal_eq_whole_iff {x : Binary64} {n : Int64} :
    ofReal x = .whole n ↔ x.whole? = some n.toInt ∧ n ≠ Int64.minValue := by
  have hlow := n.le_toInt
  have hhigh := n.toInt_lt
  have hleast : n ≠ Int64.minValue ↔ n.toInt ≠ -2 ^ 63 := by
    rw [Ne, ← Int64.toInt_inj, Int64.toInt_minValue]
  rw [hleast]
  unfold ofReal
  cases hwhole : x.whole? with
  | none => simp
  | some k =>
    dsimp only
    split
    · next hsmall =>
      have hk : (Int64.ofInt k).toInt = k := Int64.toInt_ofInt_of_le (by omega) (by omega)
      rw [whole.injEq, ← Int64.toInt_inj, hk, Option.some.injEq]
      omega
    · next hlarge =>
      rw [Option.some.injEq]
      constructor
      · exact nofun
      · rintro ⟨rfl, hne⟩
        omega

end Slot

namespace Scalar

/-- Two values that are the same in one way only. Zero and negative zero share a slot and are not
equal. An integer equals the number that it is rounded to, but shares no slot with it if that has
another value, or if the integer is the least one. -/
inductive Clash : Scalar → Scalar → Prop
  | signs : Clash (.number (.real (.zero false))) (.number (.real (.zero true)))
  | sign : Clash (.number (.int 0)) (.number (.real (.zero true)))
  | rounded {n : Int64} (h : (Binary64.ofInt n.toInt).whole? ≠ some n.toInt) :
      Clash (.number (.int n)) (.number (.real (.ofInt n.toInt)))
  | least :
      Clash (.number (.int Int64.minValue)) (.number (.real (.ofInt Int64.minValue.toInt)))

def Agree (a b : Scalar) : Prop := a.compare b = .eq ↔ a.slot = b.slot

instance (a b : Scalar) : Decidable (Agree a b) := inferInstanceAs (Decidable (_ ↔ _))

theorem agree_comm {a b : Scalar} : Agree a b ↔ Agree b a := by
  have hcompare : a.compare b = .eq ↔ b.compare a = .eq := by
    rw [compare_swap a b]
    cases b.compare a <;> decide
  rw [Agree, Agree, hcompare, eq_comm (a := a.slot)]

theorem agree_int_real {n : Int64} {x : Binary64} :
    Agree (.number (.int n)) (.number (.real x)) ↔
      ¬ Clash (.number (.int n)) (.number (.real x)) := by
  have hcompare : (number (.int n)).compare (.number (.real x)) = .eq ↔ .ofInt n.toInt = x :=
    Binary64.total_eq_iff
  have hslot : (number (.int n)).slot = (number (.real x)).slot ↔
      x.whole? = some n.toInt ∧ n ≠ Int64.minValue := by
    rw [← Slot.ofReal_eq_whole_iff]
    exact eq_comm
  rw [Agree, hcompare, hslot]
  constructor
  · intro h hclash
    cases hclash with
    | sign => exact absurd (h.mpr (by decide +kernel)) (by decide +kernel)
    | rounded hne => exact hne (h.mp rfl).1
    | least => exact (h.mp rfl).2 rfl
  · intro h
    constructor
    · rintro rfl
      refine ⟨?_, ?_⟩
      · by_contra hne
        exact h (.rounded hne)
      · rintro rfl
        exact h .least
    · rintro ⟨hwhole, -⟩
      obtain rfl | ⟨hzero, rfl⟩ := Binary64.eq_ofInt_of_whole? hwhole
      · rfl
      · -- Negative zero stands for 0, to which it is not equal.
        have hn : n = 0 := Int64.toInt_inj.mp hzero
        subst hn
        exact absurd .sign h

theorem eq_or_zeros_of_ofReal {x y : Binary64} (h : Slot.ofReal x = .ofReal y) :
    x = y ∨ (x = .zero false ∧ y = .zero true) ∨ (x = .zero true ∧ y = .zero false) := by
  have hzero : Binary64.ofInt (0 : Int) = .zero false := by decide +kernel
  obtain hx | ⟨n, hx⟩ := Slot.ofReal_cases x
  · obtain hy | ⟨m, hy⟩ := Slot.ofReal_cases y
    · rw [hx, hy, Slot.fractional.injEq] at h
      exact .inl h
    · rw [hx, hy] at h
      cases h
  · obtain hwx := Slot.ofReal_eq_whole_iff.mp hx
    obtain hwy := Slot.ofReal_eq_whole_iff.mp (h.symm.trans hx)
    obtain rfl | ⟨hn, rfl⟩ := Binary64.eq_ofInt_of_whole? hwx.1 <;>
      obtain rfl | ⟨hm, rfl⟩ := Binary64.eq_ofInt_of_whole? hwy.1
    · exact .inl rfl
    · rw [hm, hzero]
      exact .inr (.inl ⟨rfl, rfl⟩)
    · rw [hn, hzero]
      exact .inr (.inr ⟨rfl, rfl⟩)
    · exact .inl rfl

theorem not_agree_signs :
    ¬ Agree (.number (.real (.zero false))) (.number (.real (.zero true))) := by
  decide +kernel

theorem agree_real_real {x y : Binary64} :
    Agree (.number (.real x)) (.number (.real y)) ↔
      ¬ (Clash (.number (.real x)) (.number (.real y)) ∨
        Clash (.number (.real y)) (.number (.real x))) := by
  constructor
  · rintro h (hclash | hclash)
    · cases hclash
      exact not_agree_signs h
    · cases hclash
      exact not_agree_signs (agree_comm.mp h)
  · intro h
    have hcompare : (number (.real x)).compare (.number (.real y)) = .eq ↔ x = y :=
      Binary64.total_eq_iff
    rw [Agree, hcompare]
    constructor
    · rintro rfl
      rfl
    · intro hslot
      obtain hxy | ⟨rfl, rfl⟩ | ⟨rfl, rfl⟩ := eq_or_zeros_of_ofReal hslot
      · exact hxy
      · exact absurd (.inl .signs) h
      · exact absurd (.inr .signs) h

theorem agree_int_int (m n : Int64) : Agree (.number (.int m)) (.number (.int n)) := by
  have hcompare : (number (.int m)).compare (.number (.int n)) = .eq ↔ m = n :=
    Int.compare_eq_eq.trans Int64.toInt_inj
  rw [Agree, hcompare]
  exact ⟨congrArg Slot.whole, Slot.whole.inj⟩

theorem compare_text_eq {s t : String} : (text s).compare (.text t) = .eq ↔ s = t := by
  constructor
  · intro h
    have hst : s ≤ t := compare_text_ne_gt.mp (by rw [h]; exact nofun)
    have hts : t ≤ s := compare_text_ne_gt.mp (by rw [compare_swap, h]; exact nofun)
    exact String.le_antisymm hst hts
  · rintro rfl
    rw [compare_text, if_neg (String.lt_irrefl s), if_neg (String.lt_irrefl s)]

theorem agree_text (s : String) (b : Scalar) : Agree (.text s) b := by
  cases b with
  | text t =>
    rw [Agree, compare_text_eq]
    exact ⟨congrArg Slot.text, Slot.text.inj⟩
  | number y =>
    have hslot : (text s).slot ≠ (number y).slot := by
      cases y with
      | int n => exact nofun
      | real y =>
        obtain hy | ⟨n, hy⟩ := Slot.ofReal_cases y <;>
          exact fun h => nomatch h.trans hy
    exact iff_of_false nofun hslot

theorem agree_iff_not_clash (a b : Scalar) : Agree a b ↔ ¬ (Clash a b ∨ Clash b a) := by
  cases a with
  | text s => exact iff_of_true (agree_text s b) (not_or.mpr ⟨nofun, nofun⟩)
  | number x =>
    cases b with
    | text t => exact iff_of_true (agree_comm.mp (agree_text t _)) (not_or.mpr ⟨nofun, nofun⟩)
    | number y =>
      cases x with
      | int m =>
        cases y with
        | int n => exact iff_of_true (agree_int_int m n) (not_or.mpr ⟨nofun, nofun⟩)
        | real y => rw [agree_int_real, or_iff_left nofun]
      | real x =>
        cases y with
        | int n => rw [agree_comm, agree_int_real, or_iff_right nofun]
        | real y => exact agree_real_real

end Scalar

end Rollup
