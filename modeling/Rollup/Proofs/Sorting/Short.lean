import Mathlib.Data.List.Perm.Basic
import Rollup.Proofs.Sorting.Feature
import Rollup.Proofs.Sorting.Ranked

namespace Rollup

variable {α : Type}

section Permutation

variable (below : α → α → Bool)

theorem insertDown_perm (x : α) (sorted : List α) :
    (insertDown below x sorted).Perm (x :: sorted) := by
  induction sorted with
  | nil => exact .refl _
  | cons y sorted ih =>
    rw [insertDown]
    split
    · exact (ih.cons y).trans (.swap x y sorted)
    · exact .refl _

theorem insertAll_perm (sorted xs : List α) : (insertAll below sorted xs).Perm (sorted ++ xs) := by
  have hfold (down : List α) :
      (xs.foldl (fun sorted x => insertDown below x sorted) down).Perm (down ++ xs) := by
    induction xs generalizing down with
    | nil => rw [List.append_nil, List.foldl_nil]
    | cons x xs ih =>
      have hinsert := (insertDown_perm below x down).append_right xs
      exact ((ih _).trans hinsert).trans List.perm_middle.symm
  exact (List.reverse_perm _).trans ((hfold _).trans ((List.reverse_perm sorted).append_right xs))

theorem sortBy_perm (xs : List α) : (sortBy below xs).Perm xs := insertAll_perm below [] xs

theorem sortFour_perm (a b c d : α) : (sortFour below a b c d).Perm [a, b, c, d] := by
  have hplaces (below : Nat → Nat → Bool) : (sortFour below 0 1 2 3).Perm [0, 1, 2, 3] := by
    simp only [sortFour, inOrder]
    split_ifs <;> decide
  have hmap := sortFour_map below ([a, b, c, d].getD · a) 0 1 2 3
  exact hmap ▸ (hplaces _).map ([a, b, c, d].getD · a)

theorem sortHalf_perm (four : Bool) (xs : List α) : (sortHalf below four xs).Perm xs := by
  rw [sortHalf.eq_def]
  split
  · exact (insertAll_perm below _ _).trans ((sortFour_perm below _ _ _ _).append_right _)
  · exact sortBy_perm below _

/-- After `n` steps of merging `xs` and `ys`, `ahead` and `behind` have been taken from their
fronts. -/
structure Merging.After (leads : α → α → Bool) (n : Nat) (xs ys ahead behind : List α)
    (merging : Merging α) : Prop where
  left : ahead ++ merging.left = xs
  right : behind ++ merging.right = ys
  perm : merging.merged.Perm (ahead ++ behind)
  length : ahead.length + behind.length = n
  merge : merging.merged ++ merging.left.merge merging.right leads = xs.merge ys leads

theorem mergeSteps_after (leads : α → α → Bool) {n : Nat} (xs ys : List α) (hx : n ≤ xs.length)
    (hy : n ≤ ys.length) :
    ∃ ahead behind, (mergeSteps leads n xs ys).After leads n xs ys ahead behind := by
  induction n generalizing xs ys with
  | zero => exact ⟨[], [], rfl, rfl, .refl _, rfl, rfl⟩
  | succ n ih =>
    obtain ⟨x, xs, rfl⟩ := List.exists_cons_of_length_pos (Nat.lt_of_lt_of_le n.succ_pos hx)
    obtain ⟨y, ys, rfl⟩ := List.exists_cons_of_length_pos (Nat.lt_of_lt_of_le n.succ_pos hy)
    simp only [List.length_cons] at hx hy
    rw [mergeSteps]
    split
    · next hlead =>
      obtain ⟨ahead, behind, h⟩ := ih xs (y :: ys) (by omega) (by simp; omega)
      refine ⟨x :: ahead, behind, congrArg (x :: ·) h.left, h.right, h.perm.cons x, ?_, ?_⟩
      · rw [List.length_cons, ← h.length]
        omega
      · rw [List.cons_merge_cons, if_pos hlead, ← h.merge]
        rfl
    · next hlead =>
      obtain ⟨ahead, behind, h⟩ := ih (x :: xs) ys (by simp; omega) (by omega)
      refine ⟨ahead, y :: behind, h.left, congrArg (y :: ·) h.right,
        (h.perm.cons y).trans List.perm_middle.symm, ?_, ?_⟩
      · rw [List.length_cons, ← h.length]
        omega
      · rw [List.cons_merge_cons, if_neg hlead, ← h.merge]
        rfl

theorem take_append_reverse {xs as bs cs ds : List α} (hfront : as ++ bs = xs)
    (hback : cs ++ ds = xs.reverse) (hlen : cs.length ≤ bs.length) :
    bs.take (bs.length - cs.length) ++ cs.reverse = bs := by
  have hcs : cs.reverse <:+ xs := by
    rw [← List.reverse_prefix, List.reverse_reverse]
    exact ⟨ds, hback⟩
  have hsuffix : cs.reverse <:+ bs :=
    List.suffix_of_suffix_length_le hcs ⟨as, hfront⟩ (by rwa [List.length_reverse])
  rw [List.suffix_iff_eq_append, List.length_reverse] at hsuffix
  exact hsuffix

section Ends

variable {left right frontLeft frontRight backLeft backRight : List α} {front back : Merging α}
  {leads leads' : α → α → Bool}
  (hfront : front.After leads left.length left right frontLeft frontRight)
  (hback : back.After leads' left.length right.reverse left.reverse backRight backLeft)
include hfront hback

/-- The ends meet if the front has left all that the back has taken. -/
theorem meet?_eq : meet? left right front back =
    if backLeft.length ≤ front.left.length ∧ backRight.length ≤ front.right.length then
      some (front.merged ++ (front.left.take (front.left.length - backLeft.length) ++
        front.right.take (front.right.length - backRight.length)) ++ back.merged.reverse)
    else none := by
  have hfl := congrArg List.length hfront.left
  have hfr := congrArg List.length hfront.right
  have hbl := congrArg List.length hback.right
  have hbr := congrArg List.length hback.left
  simp only [List.length_append, List.length_reverse] at hfl hfr hbl hbr
  have hfn := hfront.length
  have hbn := hback.length
  have hleft : front.left.length + back.right.length - left.length =
      front.left.length - backLeft.length := by omega
  have hright : right.length - (front.left.length + back.right.length) =
      front.right.length - backRight.length := by omega
  simp only [meet?, hleft, hright]
  exact if_congr (by omega) rfl rfl

theorem meet?_perm {ys : List α} (h : meet? left right front back = some ys) :
    ys.Perm (left ++ right) := by
  rw [meet?_eq hfront hback, Option.ite_none_right_eq_some, Option.some.injEq] at h
  obtain ⟨⟨hleft, hright⟩, rfl⟩ := h
  have hl := take_append_reverse hfront.left hback.right hleft
  have hr := take_append_reverse hfront.right hback.left hright
  rw [← hfront.left, ← hfront.right]
  classical
  rw [List.perm_iff_count]
  intro z
  have hlz := congrArg (List.count z) hl
  have hrz := congrArg (List.count z) hr
  have hfz := hfront.perm.count_eq z
  have hbz := hback.perm.count_eq z
  simp only [List.count_append, List.count_reverse] at hlz hrz hfz hbz ⊢
  omega

end Ends

theorem mergeFromEnds?_perm {left right ys : List α} (hlen : left.length ≤ right.length)
    (h : mergeFromEnds? below left right = some ys) : ys.Perm (left ++ right) := by
  obtain ⟨_, _, hfront⟩ :=
    mergeSteps_after (fun x y => !below y x) left right (Nat.le_refl _) hlen
  obtain ⟨_, _, hback⟩ :=
    mergeSteps_after (fun y x => !below y x) right.reverse left.reverse (by simpa using hlen)
      (by simp)
  exact meet?_perm hfront hback h

theorem sortShort?_perm {xs ys : List α} (h : sortShort? below xs = some ys) : ys.Perm xs := by
  rw [sortShort?] at h
  split at h
  · obtain rfl := Option.some.inj h
    exact .refl _
  · have hleft := sortHalf_perm below (8 ≤ xs.length) (xs.take (xs.length / 2))
    have hright := sortHalf_perm below (8 ≤ xs.length) (xs.drop (xs.length / 2))
    have hmerge := mergeFromEnds?_perm below
      (by rw [hleft.length_eq, hright.length_eq, List.length_take, List.length_drop]; omega) h
    exact hmerge.trans ((hleft.append hright).trans (.of_eq (List.take_append_drop _ xs)))

end Permutation

section Ranks

variable {rank : α → Int} {xs ys : List α}

theorem filter_insertDown (x : α) (down : List α) (r : Int) :
    (insertDown (byRank rank) x down).filter (rank · = r) = (x :: down).filter (rank · = r) := by
  induction down with
  | nil => rfl
  | cons y down ih =>
    rw [insertDown]
    split
    · next hbelow =>
      have hne : rank x ≠ rank y := by
        have : rank x < rank y := by simpa [byRank] using hbelow
        omega
      -- Only one of two elements with different ranks passes.
      by_cases hx : rank x = r
      · have hy : rank y ≠ r := fun hy => hne (hx.trans hy.symm)
        simp [ih, hx, hy]
      · by_cases hy : rank y = r <;> simp [ih, hx, hy]
    · rfl

theorem insertDown_descending (x : α) {down : List α}
    (h : down.Pairwise fun a b => rank b ≤ rank a) :
    (insertDown (byRank rank) x down).Pairwise fun a b => rank b ≤ rank a := by
  induction down with
  | nil => exact List.pairwise_singleton _ x
  | cons y down ih =>
    rw [insertDown]
    split
    · next hbelow =>
      have hxy : rank x < rank y := by simpa [byRank] using hbelow
      refine List.pairwise_cons.mpr ⟨fun z hz => ?_, ih h.of_cons⟩
      obtain rfl | hz := List.mem_cons.mp ((insertDown_perm _ x down).mem_iff.mp hz)
      · omega
      · exact List.rel_of_pairwise_cons h hz
    · next hbelow =>
      have hyx : rank y ≤ rank x := by simpa [byRank] using hbelow
      refine List.pairwise_cons.mpr ⟨fun z hz => ?_, h⟩
      obtain rfl | hz := List.mem_cons.mp hz
      · exact hyx
      · exact Int.le_trans (List.rel_of_pairwise_cons h hz) hyx

namespace Sorts

theorem insertAll (h : Sorts rank xs ys) (zs : List α) :
    Sorts rank (xs ++ zs) (insertAll (byRank rank) ys zs) := by
  rw [Rollup.insertAll]
  induction zs generalizing xs ys with
  | nil => rwa [List.append_nil, List.foldl_nil, List.reverse_reverse]
  | cons z zs ih =>
    have hinsert : Sorts rank (xs ++ [z]) (insertDown (byRank rank) z ys.reverse).reverse := by
      refine ⟨?_, fun r => ?_⟩
      · rw [List.pairwise_reverse]
        exact insertDown_descending z (List.pairwise_reverse.mpr h.ascending)
      · rw [List.filter_reverse, filter_insertDown, ← List.filter_reverse, List.reverse_cons,
          List.reverse_reverse, List.filter_append, List.filter_append, h.stable]
    have hrest := ih hinsert
    rwa [List.reverse_reverse, List.append_assoc] at hrest

theorem sortBy (xs : List α) : Sorts rank xs (sortBy (byRank rank) xs) :=
  (refl .nil).insertAll xs

/-- To sort a list is to sort its positions, of equal elements the earlier one first. -/
theorem of_positions {places : List Nat} {n : Nat} (hperm : places.Perm (List.range n))
    {f : Nat → α} (h : places.Pairwise fun i j =>
      rank (f i) < rank (f j) ∨ rank (f i) = rank (f j) ∧ i < j) :
    Sorts rank ((List.range n).map f) (places.map f) where
  ascending := List.pairwise_map.mpr (h.imp fun hij => by omega)
  stable r := by
    rw [List.filter_map, List.filter_map]
    have hplaces := h.filter (fun i => decide (rank (f i) = r))
    have hsorted : (places.filter fun i => decide (rank (f i) = r)).Pairwise (· < ·) := by
      refine hplaces.imp_of_mem fun hi hj hij => ?_
      have hi' := List.of_mem_filter hi
      have hj' := List.of_mem_filter hj
      simp only [decide_eq_true_eq] at hi' hj'
      omega
    refine congrArg (List.map f) (List.Perm.eq_of_pairwise (fun i j _ _ hij hji => ?_) hsorted
      (List.pairwise_lt_range.filter _) (hperm.filter _))
    omega

theorem sortFour (a b c d : α) : Sorts rank [a, b, c, d] (sortFour (byRank rank) a b c d) := by
  have hplaces (rank : Nat → Int) : (Rollup.sortFour (byRank rank) 0 1 2 3).Pairwise fun i j =>
      rank i < rank j ∨ rank i = rank j ∧ i < j := by
    simp only [Rollup.sortFour, inOrder, byRank, decide_eq_true_eq]
    split_ifs <;> simp at * <;> omega
  have hmap := sortFour_map (byRank rank) ([a, b, c, d].getD · a) 0 1 2 3
  have hsorts := of_positions (n := 4) (sortFour_perm _ 0 1 2 3)
    (hplaces fun i => rank ([a, b, c, d].getD i a))
  exact hmap ▸ hsorts

theorem sortHalf (four : Bool) (xs : List α) : Sorts rank xs (sortHalf (byRank rank) four xs) := by
  rw [sortHalf.eq_def]
  split
  · exact (sortFour _ _ _ _).insertAll _
  · exact sortBy _

end Sorts

section Marked

variable {mark : α → Bool} {left right : List α}

theorem take_merge_marked (hleft : ∀ x ∈ left, mark x = true) (hright : ∀ y ∈ right, mark y = false)
    (leads : α → α → Bool) {n : Nat} (hn : n ≤ 1) :
    left.take (((left.merge right leads).take n).countP mark) ++
        right.take (n - ((left.merge right leads).take n).countP mark) =
      (left.merge right leads).take n := by
  obtain rfl | rfl : n = 0 ∨ n = 1 := by omega
  · simp
  · cases left with
    | nil => cases right <;> simp_all
    | cons x left =>
      cases right with
      | nil => simp_all
      | cons y right =>
        rw [List.cons_merge_cons]
        split <;> simp_all

/-- If each element tells which list it comes from, the last steps from the back find in the middle
what the front has not reached. -/
theorem meet?_of_marked {frontLeft frontRight backLeft backRight : List α} {front back : Merging α}
    {leads leads' : α → α → Bool} (hleft : ∀ x ∈ left, mark x = true)
    (hright : ∀ y ∈ right, mark y = false) (hlen : left.length ≤ right.length)
    (hlen' : right.length ≤ left.length + 1)
    (hfront : front.After leads left.length left right frontLeft frontRight)
    (hback : back.After leads' left.length right.reverse left.reverse backRight backLeft)
    (hreverse : right.reverse.merge left.reverse leads' = (left.merge right leads).reverse) :
    meet? left right front back = some (left.merge right leads) := by
  have hmarks {xs ys zs : List α} (hxs : xs ⊆ left) (hys : ys ⊆ right) (h : zs.Perm (xs ++ ys)) :
      zs.countP mark = xs.length ∧ zs.length = xs.length + ys.length := by
    have hx : xs.countP mark = xs.length := List.countP_eq_length.mpr fun x hx => hleft x (hxs hx)
    have hy : ys.countP mark = 0 := List.countP_eq_zero.mpr fun y hy => by simp [hright y (hys hy)]
    rw [h.countP_eq, h.length_eq, List.countP_append, List.length_append, hx, hy]
    exact ⟨rfl, rfl⟩
  have hfl : front.left ⊆ left := hfront.left ▸ List.subset_append_right _ _
  have hfr : front.right ⊆ right := hfront.right ▸ List.subset_append_right _ _
  have hbl : backLeft ⊆ left := fun z hz =>
    List.mem_reverse.mp (hback.right ▸ List.mem_append_left _ hz)
  have hbr : backRight ⊆ right := fun z hz =>
    List.mem_reverse.mp (hback.left ▸ List.mem_append_left _ hz)
  obtain ⟨hrestMarks, hrest⟩ := hmarks hfl hfr (List.merge_perm_append leads)
  obtain ⟨hbackMarks, hbackLength⟩ := hmarks hbl hbr (hback.perm.trans List.perm_append_comm)
  have hl := congrArg List.length hfront.left
  have hr := congrArg List.length hfront.right
  simp only [List.length_append] at hl hr
  have hfn := hfront.length
  have hbn := hback.length
  have hmerge := hfront.merge
  -- The front and the back leave out at most the element by which the right list is longer.
  have hmiddle := take_append_reverse hmerge (hback.merge.trans hreverse) (by omega)
  have htake := take_merge_marked (fun x hx => hleft x (hfl hx)) (fun y hy => hright y (hfr hy))
    leads (n := (front.left.merge front.right leads).length - back.merged.length) (by omega)
  generalize front.left.merge front.right leads = rest at *
  have hmarked :=
    List.countP_le_length (p := mark) (l := rest.take (rest.length - back.merged.length))
  have hmiddleMarks := congrArg (List.countP mark) hmiddle
  rw [List.countP_append, List.countP_reverse] at hmiddleMarks
  rw [List.length_take] at hmarked
  have hmarksLeft : (rest.take (rest.length - back.merged.length)).countP mark =
      front.left.length - backLeft.length := by omega
  have hmarksRight : rest.length - back.merged.length - (front.left.length - backLeft.length) =
      front.right.length - backRight.length := by omega
  rw [hmarksLeft, hmarksRight] at htake
  rw [meet?_eq hfront hback, if_pos (by omega), htake, List.append_assoc, hmiddle, hmerge]

theorem mergeFromEnds?_of_marked {rank : α → Int} (hleft : ∀ x ∈ left, mark x = true)
    (hright : ∀ y ∈ right, mark y = false) (hl : left.Pairwise fun a b => rank a ≤ rank b)
    (hr : right.Pairwise fun a b => rank a ≤ rank b) (hlen : left.length ≤ right.length)
    (hlen' : right.length ≤ left.length + 1) :
    mergeFromEnds? (byRank rank) left right =
      some (left.merge right fun x y => !byRank rank y x) := by
  obtain ⟨_, _, hfront⟩ :=
    mergeSteps_after (fun x y => !byRank rank y x) left right (Nat.le_refl _) hlen
  obtain ⟨_, _, hback⟩ :=
    mergeSteps_after (fun y x => !byRank rank y x) right.reverse left.reverse (by simpa using hlen)
      (by simp)
  apply meet?_of_marked hleft hright hlen hlen' hfront hback
  rw [← List.reverse_inj, List.reverse_reverse]
  exact ((Sorts.refl hl).merge_reverse (.refl hr)).unique ((Sorts.refl hl).merge (.refl hr))

end Marked

theorem mergeFromEnds?_eq_merge {left right : List α}
    (hl : left.Pairwise fun a b => rank a ≤ rank b)
    (hr : right.Pairwise fun a b => rank a ≤ rank b) (hlen : left.length ≤ right.length)
    (hlen' : right.length ≤ left.length + 1) :
    mergeFromEnds? (byRank rank) left right =
      some (left.merge right fun x y => !byRank rank y x) := by
  have hfst (zs : List α) (mark : Bool) : (zs.map (·, mark)).map Prod.fst = zs := by
    rw [List.map_map]
    exact List.map_id zs
  have hleft : ∀ x ∈ left.map (·, true), x.2 = true := by simp
  have hright : ∀ y ∈ right.map (·, false), y.2 = false := by simp
  have hmarked : mergeFromEnds? (byRank fun a : α × Bool => rank a.1) (left.map (·, true))
      (right.map (·, false)) = _ :=
    mergeFromEnds?_of_marked hleft hright (List.pairwise_map.mpr hl) (List.pairwise_map.mpr hr)
      (by simpa using hlen) (by simpa using hlen')
  have hmap := mergeFromEnds?_map (byRank rank) Prod.fst (left.map (·, true)) (right.map (·, false))
  have hmerge := merge_map Prod.fst (fun x y => !byRank rank y x) (left.map (·, true))
    (right.map (·, false))
  rw [hfst, hfst] at hmap hmerge
  rw [hmap, hmerge]
  exact congrArg (Option.map _) hmarked

theorem sortShort?_sorts (xs : List α) :
    ∃ ys, sortShort? (byRank rank) xs = some ys ∧ Sorts rank xs ys := by
  rw [sortShort?]
  split
  · next hlen =>
    refine ⟨xs, rfl, .refl ?_⟩
    cases xs with
    | nil => exact .nil
    | cons x xs =>
      obtain rfl : xs = [] := by
        apply List.eq_nil_of_length_eq_zero
        rw [List.length_cons] at hlen
        omega
      exact List.pairwise_singleton _ x
  · have hleft : Sorts rank _ _ := .sortHalf (8 ≤ xs.length) (xs.take (xs.length / 2))
    have hright : Sorts rank _ _ := .sortHalf (8 ≤ xs.length) (xs.drop (xs.length / 2))
    have hsorts := hleft.merge hright
    rw [List.take_append_drop] at hsorts
    refine ⟨_, mergeFromEnds?_eq_merge hleft.ascending hright.ascending ?_ ?_, hsorts⟩
    · rw [(sortHalf_perm _ _ _).length_eq, (sortHalf_perm _ _ _).length_eq, List.length_take,
        List.length_drop]
      omega
    · rw [(sortHalf_perm _ _ _).length_eq, (sortHalf_perm _ _ _).length_eq, List.length_take,
        List.length_drop]
      omega

end Ranks

end Rollup
