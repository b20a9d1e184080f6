import Mathlib.Data.List.Perm.Basic
import Rollup.Sorting.Runs

namespace Rollup

variable {α : Type}

def byRank (rank : α → Int) (a b : α) : Bool := rank a < rank b

/-- `ys` lists `xs` in ascending order of rank, and elements of one rank in the order they had. -/
structure Sorts (rank : α → Int) (xs ys : List α) : Prop where
  ascending : ys.Pairwise fun a b => rank a ≤ rank b
  stable : ∀ r, ys.filter (rank · = r) = xs.filter (rank · = r)

variable {rank : α → Int} {xs ys ls rs : List α}

namespace Sorts

theorem mem_iff (h : Sorts rank xs ys) (a : α) : a ∈ ys ↔ a ∈ xs := by
  have hfilter : a ∈ ys.filter (rank · = rank a) ↔ a ∈ xs.filter (rank · = rank a) := by
    rw [h.stable]
  simpa using hfilter

theorem refl (h : xs.Pairwise fun a b => rank a ≤ rank b) : Sorts rank xs xs := ⟨h, fun _ => rfl⟩

theorem head_le {y a : α} (h : Sorts rank xs (y :: ys)) (ha : a ∈ xs) : rank y ≤ rank a := by
  obtain rfl | hmem := List.mem_cons.mp ((h.mem_iff a).mpr ha)
  · exact Int.le_refl _
  · exact List.rel_of_pairwise_cons h.ascending hmem

theorem unique {zs : List α} (hy : Sorts rank xs ys) (hz : Sorts rank xs zs) : ys = zs := by
  induction ys generalizing xs zs with
  | nil =>
    rw [eq_comm, List.eq_nil_iff_forall_not_mem]
    exact fun a ha => List.not_mem_nil ((hy.mem_iff a).mpr ((hz.mem_iff a).mp ha))
  | cons y ys ih =>
    cases zs with
    | nil => exact absurd ((hz.mem_iff y).mpr ((hy.mem_iff y).mp (by simp))) List.not_mem_nil
    | cons z zs =>
      have hrank : rank z = rank y := Int.le_antisymm
        (hz.head_le ((hy.mem_iff y).mp List.mem_cons_self))
        (hy.head_le ((hz.mem_iff z).mp List.mem_cons_self))
      have hsame := (hy.stable (rank y)).trans (hz.stable (rank y)).symm
      rw [List.filter_cons_of_pos (by simp), List.filter_cons_of_pos (by simpa using hrank)]
        at hsame
      obtain rfl := (List.cons.inj hsame).1
      have htails : ∀ r, zs.filter (rank · = r) = ys.filter (rank · = r) := by
        intro r
        have h := (hz.stable r).trans (hy.stable r).symm
        by_cases hr : rank y = r
        · rw [List.filter_cons_of_pos (by simpa using hr),
            List.filter_cons_of_pos (by simpa using hr)] at h
          exact (List.cons.inj h).2
        · rwa [List.filter_cons_of_neg (by simpa using hr),
            List.filter_cons_of_neg (by simpa using hr)] at h
      rw [ih (refl hy.ascending.of_cons) ⟨hz.ascending.of_cons, htails⟩]

theorem pairwise {r : α → α → Prop} (h : Sorts rank xs ys) (hxs : xs.Pairwise r) :
    ys.Pairwise fun a b => rank a ≤ rank b ∧ (rank a = rank b → r a b) := by
  refine h.ascending.and (List.pairwise_iff_forall_sublist.mpr fun {a b} hsub hrank => ?_)
  have hfilter := hsub.filter (rank · = rank a)
  rw [h.stable] at hfilter
  simp only [List.filter_cons, hrank, decide_true, if_true, List.filter_nil] at hfilter
  exact List.pairwise_iff_forall_sublist.mp hxs (hfilter.trans List.filter_sublist)

theorem reverse (h : Sorts rank xs ys) : Sorts (fun a => -rank a) xs.reverse ys.reverse where
  ascending := List.pairwise_reverse.mpr (h.ascending.imp Int.neg_le_neg)
  stable r := by
    have hneg : ∀ a, (decide (-rank a = r)) = decide (rank a = -r) := by
      intro a
      rw [decide_eq_decide]
      omega
    simp only [hneg, List.filter_reverse, h.stable]

end Sorts

theorem filter_merge (h : ls.Pairwise fun a b => rank a ≤ rank b) (r : Int) :
    (ls.merge rs fun x y => !byRank rank y x).filter (rank · = r) =
      ls.filter (rank · = r) ++ rs.filter (rank · = r) := by
  induction ls generalizing rs with
  | nil => simp
  | cons x ls ihl =>
    induction rs with
    | nil => simp
    | cons y rs ihr =>
      rw [List.cons_merge_cons]
      split
      · rw [List.filter_cons, ihl h.of_cons]
        by_cases hx : rank x = r <;> simp [hx]
      · next hlead =>
        have hyx : rank y < rank x := by simpa [byRank] using hlead
        rw [List.filter_cons, ihr]
        by_cases hy : rank y = r
        · have hnone : (x :: ls).filter (rank · = r) = [] := by
            rw [List.filter_eq_nil_iff]
            intro z hz
            obtain rfl | hz := List.mem_cons.mp hz
            · simp; omega
            · have := List.rel_of_pairwise_cons h hz
              simp; omega
          simp [hy, hnone]
        · simp [hy]

namespace Sorts

theorem merge {xs' ys' : List α} (hx : Sorts rank xs xs') (hy : Sorts rank ys ys') :
    Sorts rank (xs ++ ys) (xs'.merge ys' fun x y => !byRank rank y x) where
  ascending := by
    have hle : ∀ a b, (!byRank rank b a) = true ↔ rank a ≤ rank b := by simp [byRank]
    simp only [← hle]
    apply List.pairwise_merge
    · intro a b c
      simp only [hle]
      omega
    · intro a b
      simp only [Bool.or_eq_true, hle]
      omega
    · exact hx.ascending.imp (hle _ _).mpr
    · exact hy.ascending.imp (hle _ _).mpr
  stable r := by rw [filter_merge hx.ascending, List.filter_append, hx.stable, hy.stable]

theorem merge_reverse {xs' ys' : List α} (hx : Sorts rank xs xs') (hy : Sorts rank ys ys') :
    Sorts rank (xs ++ ys) (ys'.reverse.merge xs'.reverse fun y x => !byRank rank y x).reverse := by
  have hneg : byRank rank = fun y x => byRank (fun a => -rank a) x y := by
    funext y x
    simp [byRank]
  have hback := (hy.reverse.merge hx.reverse).reverse
  rw [← List.reverse_append, List.reverse_reverse] at hback
  simpa only [Int.neg_neg, hneg] using hback

theorem mergeSorted {xs' ys' : List α} (hx : Sorts rank xs xs') (hy : Sorts rank ys ys') :
    Sorts rank (xs ++ ys) (mergeSorted (byRank rank) xs' ys') := by
  rw [Rollup.mergeSorted]
  split
  · exact hx.merge hy
  · exact hx.merge_reverse hy

end Sorts

end Rollup
