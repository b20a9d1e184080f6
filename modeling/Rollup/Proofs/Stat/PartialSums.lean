import Mathlib.Algebra.Ring.Int.Defs
import Mathlib.Data.List.Infix
import Rollup.Proofs.Stat.Integers

namespace Rollup

namespace Number

def Held (n : Int) : Prop := -0x8000000000000000 ≤ n ∧ n < 0x8000000000000000

instance (n : Int) : Decidable (Held n) := inferInstanceAs (Decidable (_ ∧ _))

theorem ofInt?_of_held {n : Int} (h : Held n) : ofInt? n = some (.int (.ofInt n)) := if_pos h

theorem ofInt?_of_not_held {n : Int} (h : ¬ Held n) : ofInt? n = none := if_neg h

theorem held_toInt (n : Int64) : Held n.toInt := ⟨Int64.le_toInt n, Int64.toInt_lt n⟩

theorem Held.toInt_ofInt {n : Int} (h : Held n) : (Int64.ofInt n).toInt = n :=
  Int64.toInt_ofInt_of_le h.1 h.2

section Terms

variable {start : Int} {terms : List Int}

/-- Every partial sum of the terms is held, the one before the first term included. -/
def Fits (start : Int) (terms : List Int) : Prop :=
  ∀ head, head <+: terms → Held (start + head.sum)

theorem fits_nil : Fits start [] ↔ Held start := by
  simp [Fits]

theorem fits_cons {term : Int} :
    Fits start (term :: terms) ↔ Held start ∧ Fits (start + term) terms := by
  constructor
  · intro h
    refine ⟨by simpa using h [] List.nil_prefix, fun head hhead => ?_⟩
    have hlonger := h (term :: head) (List.cons_prefix_cons.mpr ⟨rfl, hhead⟩)
    rwa [List.sum_cons, ← Int.add_assoc] at hlonger
  · rintro ⟨hstart, hrest⟩ head hhead
    obtain rfl | ⟨tail, rfl, htail⟩ := List.prefix_cons_iff.mp hhead
    · simpa using hstart
    · rw [List.sum_cons, ← Int.add_assoc]
      exact hrest tail htail

theorem Fits.held_sum (h : Fits 0 terms) : Held terms.sum := by
  simpa using h terms List.prefix_rfl

theorem addInts?_eq_some_iff {start : Int64} {ns : List Int64} {total : Number} :
    addInts? start (ns.map .int) = some total ↔
      Fits start.toInt (ns.map Int64.toInt) ∧
        total = .int (.ofInt (start.toInt + (ns.map Int64.toInt).sum)) := by
  induction ns generalizing start with
  | nil => simp [addInts?, fits_nil, held_toInt, eq_comm]
  | cons n ns ih =>
    rw [List.map_cons, List.map_cons, fits_cons, and_iff_right (held_toInt start), List.sum_cons,
      ← Int.add_assoc, addInts?]
    by_cases hheld : Held (start.toInt + n.toInt)
    · rw [ofInt?_of_held hheld, ih, hheld.toInt_ofInt]
    · rw [ofInt?_of_not_held hheld]
      refine iff_of_false nofun fun ⟨hfits, _⟩ => hheld ?_
      simpa using hfits [] List.nil_prefix

def rounded (ns : List Int64) : Binary64 := Binary64.sum (ns.map fun n => .ofInt n.toInt)

theorem sum_of_fits {ns : List Int64} (h : Fits 0 (ns.map Int64.toInt)) :
    Number.sum (ns.map .int) = .int (.ofInt (ns.map Int64.toInt).sum) := by
  have hadd : addInts? 0 (ns.map .int) = some (.int (.ofInt (0 + (ns.map Int64.toInt).sum))) :=
    addInts?_eq_some_iff.mpr ⟨h, rfl⟩
  rw [Number.sum, hadd, Int.zero_add, Option.getD_some]

theorem sum_of_not_fits {ns : List Int64} (h : ¬ Fits 0 (ns.map Int64.toInt)) :
    Number.sum (ns.map .int) = .real (rounded ns) := by
  have hadd : addInts? 0 (ns.map .int) = none := by
    rw [Option.eq_none_iff_forall_ne_some]
    exact fun total htotal => h (addInts?_eq_some_iff.mp htotal).1
  rw [Number.sum, hadd, Option.getD_none, List.map_map]
  rfl

end Terms

end Number

namespace Stat

variable {stat : Stat} {items : List Item} {value : Item → Int64}

def terms (value : Item → Int64) (items : List Item) : List Int :=
  (items.map value).map Int64.toInt

theorem held_terms (value : Item → Int64) (items : List Item) :
    ∀ term ∈ terms value items, Number.Held term := by
  intro term hterm
  obtain ⟨n, -, rfl⟩ := List.mem_map.mp hterm
  exact Number.held_toInt n

theorem reduce_of_sum (hsum : stat.reduction = .sum) {values : List Scalar} {ns : List Int64}
    (h : stat.reduced? values = some (ns.map .int)) :
    stat.reduce values = .ok (Number.sum (ns.map .int)) :=
  reduce_eq_ok h (by rw [hsum]; rfl)

section Sum

variable (hsum : stat.reduction = .sum) (hplain : stat.distinct = false)
  (h : stat.Integral items value)
include hsum hplain h

theorem evaluate_sum :
    stat.evaluate items = .ok (Number.sum ((items.map value).map .int)) := by
  have hreads : stat.readsField = true := by rw [readsField, hsum]; rfl
  obtain ⟨ks, hks, -, hsame⟩ := stat.reduced_int (items.map value)
  rw [evaluate_integral h hreads, reduce_of_sum hsum hks, hsame hplain]

theorem evaluate_of_fits (hfits : Number.Fits 0 (terms value items)) :
    stat.evaluate items = .ok (.int (.ofInt (terms value items).sum)) := by
  rw [evaluate_sum hsum hplain h, Number.sum_of_fits hfits]
  rfl

theorem evaluate_of_not_fits (hfits : ¬ Number.Fits 0 (terms value items)) :
    stat.evaluate items = .ok (.real (Number.rounded (items.map value))) := by
  rw [evaluate_sum hsum hplain h, Number.sum_of_not_fits hfits]

end Sum

end Stat

end Rollup
