import Mathlib.Algebra.Order.BigOperators.Group.List
import Mathlib.Algebra.Ring.Int.Defs
import Mathlib.Data.List.Perm.Basic
import Rollup.Proofs.Stat.PartialSums

namespace Rollup

namespace Number

variable {start : Int} {terms : List Int}

def gains (terms : List Int) : Int := (terms.filter (0 < ·)).sum

def losses (terms : List Int) : Int := (terms.filter (· < 0)).sum

theorem gains_cons (term : Int) (terms : List Int) :
    gains (term :: terms) = max term 0 + gains terms := by
  by_cases h : 0 < term
  · simp [gains, List.filter_cons_of_pos, h, Int.le_of_lt h]
  · simp [gains, List.filter_cons_of_neg, h, Int.not_lt.mp h]

theorem losses_cons (term : Int) (terms : List Int) :
    losses (term :: terms) = min term 0 + losses terms := by
  by_cases h : term < 0
  · simp [losses, List.filter_cons_of_pos, h, Int.le_of_lt h]
  · simp [losses, List.filter_cons_of_neg, h, Int.not_lt.mp h]

theorem gains_add_losses (terms : List Int) : gains terms + losses terms = terms.sum := by
  induction terms with
  | nil => rfl
  | cons term terms ih =>
    rw [gains_cons, losses_cons, List.sum_cons]
    omega

theorem sum_between {chosen : List Int} (h : chosen.Sublist terms) :
    losses terms ≤ chosen.sum ∧ chosen.sum ≤ gains terms := by
  induction h with
  | slnil => exact ⟨Int.le_refl 0, Int.le_refl 0⟩
  | cons term _ ih =>
    rw [gains_cons, losses_cons]
    omega
  | cons_cons term _ ih =>
    rw [gains_cons, losses_cons, List.sum_cons]
    omega

theorem fits_of_held (hgains : Held (gains terms)) (hlosses : Held (losses terms)) :
    Fits 0 terms := by
  intro head hhead
  obtain ⟨hlow, hhigh⟩ := sum_between hhead.sublist
  rw [Int.zero_add]
  exact ⟨Int.le_trans hlosses.1 hlow, Int.lt_of_le_of_lt hhigh hgains.2⟩

theorem gains_perm {order : List Int} (h : order.Perm terms) : gains order = gains terms :=
  (h.filter _).sum_eq

theorem losses_perm {order : List Int} (h : order.Perm terms) : losses order = losses terms :=
  (h.filter _).sum_eq

theorem exists_order_not_fits (h : ¬ (Held (gains terms) ∧ Held (losses terms))) :
    ∃ order, order.Perm terms ∧ ¬ Fits 0 order := by
  have hfirst (chosen : Int → Bool) (hsum : ¬ Held (terms.filter chosen).sum) :
      ∃ order, order.Perm terms ∧ ¬ Fits 0 order := by
    refine ⟨_, List.filter_append_perm chosen terms, fun hfits => hsum ?_⟩
    simpa using hfits _ (List.prefix_append _ _)
  obtain hgains | hlosses := not_and_or.mp h
  · exact hfirst _ hgains
  · exact hfirst _ hlosses

theorem losses_eq_zero (h : ∀ term ∈ terms, 0 ≤ term) : losses terms = 0 := by
  rw [losses, List.filter_eq_nil_iff.mpr (by simpa using h), List.sum_nil]

theorem gains_eq_zero (h : ∀ term ∈ terms, term ≤ 0) : gains terms = 0 := by
  rw [gains, List.filter_eq_nil_iff.mpr (by simpa using h), List.sum_nil]

/-- After a partial sum that is not negative a loss can follow, and else a gain. Where there is none
any term leads towards the total. -/
theorem exists_next (hterms : ∀ term ∈ terms, Held term) (hne : terms ≠ []) (hstart : Held start)
    (htotal : Held (start + terms.sum)) : ∃ term ∈ terms, Held (start + term) := by
  obtain ⟨first, hfirst⟩ := List.exists_mem_of_ne_nil terms hne
  have hbetween := sum_between (List.singleton_sublist.mpr hfirst)
  have hsum := gains_add_losses terms
  rw [List.sum_singleton] at hbetween
  by_cases hsign : 0 ≤ start
  · by_cases hloss : ∃ loss ∈ terms, loss < 0
    · obtain ⟨loss, hmem, hloss⟩ := hloss
      have hheld := hterms loss hmem
      exact ⟨loss, hmem, by unfold Held at *; omega⟩
    · have hnone : losses terms = 0 := losses_eq_zero (by simpa using hloss)
      exact ⟨first, hfirst, by unfold Held at *; omega⟩
  · by_cases hgain : ∃ gain ∈ terms, 0 < gain
    · obtain ⟨gain, hmem, hgain⟩ := hgain
      have hheld := hterms gain hmem
      exact ⟨gain, hmem, by unfold Held at *; omega⟩
    · have hnone : gains terms = 0 := gains_eq_zero (by simpa using hgain)
      exact ⟨first, hfirst, by unfold Held at *; omega⟩

theorem exists_order_fits (hterms : ∀ term ∈ terms, Held term) (hstart : Held start)
    (htotal : Held (start + terms.sum)) : ∃ order, order.Perm terms ∧ Fits start order := by
  induction hlength : terms.length generalizing start terms with
  | zero =>
    rw [List.length_eq_zero_iff.mp hlength]
    exact ⟨[], .nil, fits_nil.mpr hstart⟩
  | succ count ih =>
    have hne : terms ≠ [] := List.ne_nil_of_length_eq_add_one hlength
    obtain ⟨next, hnext, hheld⟩ := exists_next hterms hne hstart htotal
    have hperm : terms.Perm (next :: terms.erase next) := List.perm_cons_erase hnext
    have hsum : start + terms.sum = start + next + (terms.erase next).sum := by
      rw [hperm.sum_eq, List.sum_cons, Int.add_assoc]
    have hrest : ∀ term ∈ terms.erase next, Held term :=
      fun term hterm => hterms term (List.mem_of_mem_erase hterm)
    have hshorter : (terms.erase next).length = count := by
      rw [List.length_erase_of_mem hnext, hlength, Nat.add_sub_cancel]
    rw [hsum] at htotal
    obtain ⟨order, horder, hfits⟩ := ih hrest hheld htotal hshorter
    exact ⟨next :: order, (horder.cons next).trans hperm.symm, fits_cons.mpr ⟨hstart, hfits⟩⟩

end Number

namespace Stat

open Number (Held Fits gains losses rounded)

variable {stat : Stat} {items : List Item} {value : Item → Int64}

theorem terms_perm (value : Item → Int64) {order : List Item} (h : order.Perm items) :
    (terms value order).Perm (terms value items) :=
  (h.map _).map _

theorem exists_order {ordered : List Int} (h : ordered.Perm (terms value items)) :
    ∃ order : List Item, order.Perm items ∧ terms value order = ordered := by
  have hterms : ∀ items, terms value items = items.map fun item => (value item).toInt :=
    fun items => List.map_map
  rw [hterms] at h
  obtain ⟨order, rfl, hperm⟩ := (congrFun₂ (List.eq_map_comp_perm _) ordered items).mpr h
  exact ⟨order, hperm, hterms order⟩

theorem evaluate_eq_evaluate_iff (hsum : stat.reduction = .sum) (hplain : stat.distinct = false)
    (h : stat.Integral items value) {order : List Item} (hperm : order.Perm items) :
    stat.evaluate order = stat.evaluate items ↔
      (Fits 0 (terms value order) ↔ Fits 0 (terms value items)) ∧
        (¬ Fits 0 (terms value items) →
          rounded (order.map value) = rounded (items.map value)) := by
  have horder := h.perm hperm
  have htotal : (terms value order).sum = (terms value items).sum := (terms_perm value hperm).sum_eq
  by_cases hfits : Fits 0 (terms value order) <;> by_cases hfits' : Fits 0 (terms value items)
  · rw [evaluate_of_fits hsum hplain horder hfits, evaluate_of_fits hsum hplain h hfits', htotal]
    simp [hfits, hfits']
  · rw [evaluate_of_fits hsum hplain horder hfits, evaluate_of_not_fits hsum hplain h hfits']
    simp [hfits, hfits']
  · rw [evaluate_of_not_fits hsum hplain horder hfits, evaluate_of_fits hsum hplain h hfits']
    simp [hfits, hfits']
  · rw [evaluate_of_not_fits hsum hplain horder hfits, evaluate_of_not_fits hsum hplain h hfits']
    simp [hfits, hfits']

/-- Two orders of the same integers have one sum exactly when both have all their partial sums held,
or when neither has and their running sums agree. If the gains and the losses are held that is so of
all orders. If only the total is, some order gives it and another one its running sum. And if not
even the total is held, every order gives its running sum. -/
theorem sum_over_orders {stat : Stat} {items : List Item} {value : Item → Int64}
    (hsum : stat.reduction = .sum) (hplain : stat.distinct = false)
    (h : stat.Integral items value) :
    (∀ order, order.Perm items →
      (stat.evaluate order = stat.evaluate items ↔
        (Fits 0 (terms value order) ↔ Fits 0 (terms value items)) ∧
          (¬ Fits 0 (terms value items) →
            rounded (order.map value) = rounded (items.map value)))) ∧
    (Held (gains (terms value items)) ∧ Held (losses (terms value items)) →
      Held (terms value items).sum ∧ ∀ order, order.Perm items →
        stat.evaluate order = .ok (.int (.ofInt (terms value items).sum))) ∧
    (Held (terms value items).sum →
      ¬ (Held (gains (terms value items)) ∧ Held (losses (terms value items))) →
      (∃ order, order.Perm items ∧
        stat.evaluate order = .ok (.int (.ofInt (terms value items).sum))) ∧
      ∃ order, order.Perm items ∧
        stat.evaluate order = .ok (.real (rounded (order.map value)))) ∧
    (¬ Held (terms value items).sum → ∀ order, order.Perm items →
      stat.evaluate order = .ok (.real (rounded (order.map value)))) := by
  have hint {order : List Item} (hperm : order.Perm items) (hfits : Fits 0 (terms value order)) :
      stat.evaluate order = .ok (.int (.ofInt (terms value items).sum)) := by
    rw [evaluate_of_fits hsum hplain (h.perm hperm) hfits, (terms_perm value hperm).sum_eq]
  have hreal {order : List Item} (hperm : order.Perm items)
      (hfits : ¬ Fits 0 (terms value order)) :
      stat.evaluate order = .ok (.real (rounded (order.map value))) :=
    evaluate_of_not_fits hsum hplain (h.perm hperm) hfits
  refine ⟨fun order hperm => evaluate_eq_evaluate_iff hsum hplain h hperm, ?_, ?_, ?_⟩
  · rintro ⟨hgains, hlosses⟩
    refine ⟨(Number.fits_of_held hgains hlosses).held_sum, fun order hperm => hint hperm ?_⟩
    have hterms := terms_perm value hperm
    apply Number.fits_of_held
    · rwa [Number.gains_perm hterms]
    · rwa [Number.losses_perm hterms]
  · intro htotal hheld
    have hzero : Held 0 := by decide
    constructor
    · obtain ⟨ordered, hordered, hfits⟩ := Number.exists_order_fits (held_terms value items)
        hzero (by rwa [Int.zero_add])
      obtain ⟨order, hperm, rfl⟩ := exists_order hordered
      exact ⟨order, hperm, hint hperm hfits⟩
    · obtain ⟨ordered, hordered, hfits⟩ := Number.exists_order_not_fits hheld
      obtain ⟨order, hperm, rfl⟩ := exists_order hordered
      exact ⟨order, hperm, hreal hperm hfits⟩
  · intro htotal order hperm
    refine hreal hperm fun hfits => htotal ?_
    rw [← (terms_perm value hperm).sum_eq]
    exact hfits.held_sum

def sized (size : Int64) : Item := .ofMembers [("size", .number (.int size))]

def size (item : Item) : Int64 :=
  match item.field? "size" with
  | some (.number (.int size)) => size
  | _ => 0

theorem integral_sized (reduction : Reduction) (measure : Option Measure) (distinct : Bool)
    (sizes : List Int64) :
    (Stat.mk "size" reduction measure distinct).Integral (sizes.map sized) size := by
  intro item hitem
  obtain ⟨n, -, rfl⟩ := List.mem_map.mp hitem
  rfl

theorem sum_over_orders_sized :
    ([4, 3, -5].map sized).Perm ([3, -5, 4].map sized) ∧
      (Stat.mk "size" .sum none false).evaluate ([4, 3, -5].map sized) = .ok (.int 2) := by
  have hperm : ([4, 3, -5].map sized).Perm ([3, -5, 4].map sized) :=
    @List.perm_append_comm _ [sized 4] [sized 3, sized (-5)]
  obtain ⟨-, hheld, -⟩ := sum_over_orders rfl rfl (integral_sized .sum none false [3, -5, 4])
  exact ⟨hperm, (hheld ⟨by decide, by decide⟩).2 _ hperm⟩

/-- Beside the greatest integer, one and its negative have to come in the right order. -/
theorem sum_depends_on_order :
    (Stat.mk "size" .sum none false).Integral ([Int64.maxValue, -1, 1].map sized) size ∧
    ([Int64.maxValue, 1, -1].map sized).Perm ([Int64.maxValue, -1, 1].map sized) ∧
      (Stat.mk "size" .sum none false).evaluate ([Int64.maxValue, 1, -1].map sized) =
        .ok (.real (.ofInt 0x8000000000000000)) ∧
      (Stat.mk "size" .sum none false).evaluate ([Int64.maxValue, -1, 1].map sized) =
        .ok (.int Int64.maxValue) := by
  refine ⟨integral_sized .sum none false _, (List.Perm.swap _ _ _).cons _, ?_, ?_⟩
  · decide +kernel
  · decide +kernel

end Stat

end Rollup
