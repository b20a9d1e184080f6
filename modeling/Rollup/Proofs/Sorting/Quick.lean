import Rollup.Proofs.Sorting.Runs

namespace Rollup

variable {α : Type} {below : α → α → Bool}

theorem median_mem {xs : List α} {a b c : α} (ha : a ∈ xs) (hb : b ∈ xs) (hc : c ∈ xs) :
    median below a b c ∈ xs := by
  rw [median]
  split_ifs <;> assumption

theorem medianOf_mem {xs : List α} {element : Nat → α} (h : ∀ i, element i ∈ xs) (n a b c : Nat) :
    medianOf below element n a b c ∈ xs := by
  fun_induction medianOf below element n a b c with
  | case1 n a b c _ iha ihb ihc => exact median_mem iha ihb ihc
  | case2 n a b c _ => exact median_mem (h a) (h b) (h c)

theorem pivot?_mem (below : α → α → Bool) {xs : List α} (hne : xs ≠ []) :
    ∃ p ∈ xs, pivot? below xs = some p := by
  cases xs with
  | nil => exact absurd rfl hne
  | cons x xs =>
    refine ⟨_, medianOf_mem (fun i => ?_) _ _ _ _, rfl⟩
    rw [List.getD_eq_getElem?_getD]
    cases hi : (x :: xs)[i]? with
    | none => exact List.mem_cons_self
    | some y => exact List.mem_of_getElem? hi

section Permutation

theorem sortAround?_perm {sort : Option α → List α → Option (List α)}
    (hsort : ∀ ancestor xs ys, sort ancestor xs = some ys → ys.Perm xs) {ancestor : Option α}
    {xs ys : List α} {pivot : α} (h : sortAround? below sort ancestor xs pivot = some ys) :
    ys.Perm xs := by
  rw [sortAround?] at h
  split at h
  · simp only [Option.bind_eq_bind, Option.bind_eq_some_iff, Option.some.injEq] at h
    obtain ⟨greater, hgreater, rfl⟩ := h
    have hparts := List.filter_append_perm (!below pivot ·) xs
    simp only [Bool.not_not] at hparts
    exact ((hsort _ _ _ hgreater).append_left _).trans hparts
  · simp only [Option.bind_eq_bind, Option.bind_eq_some_iff, Option.some.injEq] at h
    obtain ⟨others, hothers, lesser, hlesser, rfl⟩ := h
    exact ((hsort _ _ _ hlesser).append (hsort _ _ _ hothers)).trans
      (List.filter_append_perm (below · pivot) xs)

theorem quicksort?_perm {limit : Nat} {ancestor : Option α} {xs ys : List α}
    (h : quicksort? below limit ancestor xs = some ys) : ys.Perm xs := by
  induction limit generalizing ancestor xs ys with
  | zero =>
    rw [quicksort?] at h
    split at h
    · exact sortShort?_perm below h
    · exact sortRuns?_perm (fun _ _ => sortShort?_perm below) h
  | succ limit ih =>
    rw [quicksort?] at h
    split at h
    · exact sortShort?_perm below h
    · obtain ⟨pivot, _, h⟩ := Option.bind_eq_some_iff.mp h
      exact sortAround?_perm (fun _ _ _ => ih) h

end Permutation

section Ranks

variable {rank : α → Int} {xs : List α}

theorem Sorts.append_filter {p : α → Bool} {ls rs : List α} (hl : Sorts rank (xs.filter p) ls)
    (hr : Sorts rank (xs.filter (!p ·)) rs)
    (h : ∀ a ∈ xs, ∀ b ∈ xs, p a = true → p b = false → rank a < rank b) :
    Sorts rank xs (ls ++ rs) where
  ascending := by
    refine List.pairwise_append.mpr ⟨hl.ascending, hr.ascending, fun a ha b hb => ?_⟩
    obtain ⟨ha, hpa⟩ := List.mem_filter.mp ((hl.mem_iff a).mp ha)
    obtain ⟨hb, hpb⟩ := List.mem_filter.mp ((hr.mem_iff b).mp hb)
    exact Int.le_of_lt (h a ha b hb hpa (by simpa using hpb))
  stable r := by
    rw [List.filter_append, hl.stable, hr.stable, List.filter_filter, List.filter_filter]
    -- All elements of one rank are on the same side.
    by_cases hlow : ∃ a ∈ xs, p a = true ∧ rank a = r
    · obtain ⟨a, ha, hpa, hra⟩ := hlow
      have hside : ∀ b ∈ xs, rank b = r → p b = true := by
        intro b hb hrb
        by_contra hpb
        have := h a ha b hb hpa (Bool.eq_false_iff.mpr hpb)
        omega
      have hright : xs.filter (fun b => rank b = r && !p b) = [] := by
        simpa [List.filter_eq_nil_iff] using hside
      rw [hright, List.append_nil]
      exact List.filter_congr fun b hb => by simpa using hside b hb
    · have hside : ∀ b ∈ xs, rank b = r → p b = false := fun b hb hrb =>
        Bool.eq_false_iff.mpr fun hpb => hlow ⟨b, hb, hpb, hrb⟩
      have hleft : xs.filter (fun b => rank b = r && p b) = [] := by
        simpa [List.filter_eq_nil_iff] using hside
      rw [hleft, List.nil_append]
      exact List.filter_congr fun b hb => by simpa using hside b hb

theorem sortAround?_sorts {sort : Option α → List α → Option (List α)}
    (hsort : ∀ ancestor xs, (∀ p ∈ ancestor, ∀ x ∈ xs, rank p ≤ rank x) →
      ∃ ys, sort ancestor xs = some ys ∧ Sorts rank xs ys)
    {ancestor : Option α} (hancestor : ∀ p ∈ ancestor, ∀ x ∈ xs, rank p ≤ rank x) (pivot : α) :
    ∃ ys, sortAround? (byRank rank) sort ancestor xs pivot = some ys ∧ Sorts rank xs ys := by
  rw [sortAround?]
  split
  · next hfirst =>
    have hleast : ∀ x ∈ xs, rank pivot ≤ rank x := by
      intro x hx
      simp only [Bool.or_eq_true, Option.any_eq_true, List.isEmpty_iff, List.filter_eq_nil_iff]
        at hfirst
      obtain ⟨p, hp, hpivot⟩ | hnone := hfirst
      · have hpx := hancestor p hp x hx
        simp only [byRank, Bool.not_eq_true', decide_eq_false_iff_not] at hpivot
        omega
      · simpa [byRank] using hnone x hx
    obtain ⟨greater, hgreater, hsorts⟩ := hsort none (xs.filter (byRank rank pivot ·)) (by simp)
    have hequals : (xs.filter (!byRank rank pivot ·)).Pairwise fun a b => rank a ≤ rank b := by
      refine List.pairwise_of_forall_mem_list fun a ha b hb => ?_
      simp only [List.mem_filter, byRank, Bool.not_eq_true', decide_eq_false_iff_not] at ha
      have := hleast b (List.mem_of_mem_filter hb)
      omega
    refine ⟨_, by rw [hgreater]; rfl, .append_filter (.refl hequals) (by simpa using hsorts) ?_⟩
    intro a _ b _ ha hb
    simp [byRank] at ha hb
    omega
  · obtain ⟨others, hothers, hsorts⟩ := hsort (some pivot) (xs.filter (!byRank rank · pivot)) (by
      simp [byRank])
    obtain ⟨lesser, hlesser, hsorts'⟩ := hsort ancestor (xs.filter (byRank rank · pivot))
      fun p hp x hx => hancestor p hp x (List.mem_of_mem_filter hx)
    refine ⟨lesser ++ others, by rw [hothers, hlesser]; rfl, .append_filter hsorts' hsorts ?_⟩
    intro a _ b _ ha hb
    simp only [byRank, decide_eq_true_eq, decide_eq_false_iff_not] at ha hb
    omega

theorem sortRuns?_sorts {sort : List α → Option (List α)}
    (hsort : ∀ xs, ∃ ys, sort xs = some ys ∧ Sorts rank xs ys) (eager : Bool) (xs : List α) :
    ∃ ys, sortRuns? (byRank rank) sort eager xs = some ys ∧ Sorts rank xs ys := by
  have hsome : ∀ xs, (sort xs).isSome = true := by
    intro xs
    obtain ⟨ys, hys, _⟩ := hsort xs
    rw [hys, Option.isSome_some]
  have hsorts : ∀ xs ys, sort xs = some ys → Sorts rank xs ys := by
    intro xs ys h
    obtain ⟨ys', hys', hsorts⟩ := hsort xs
    rwa [Option.some.inj (h.symm.trans hys')]
  obtain ⟨ys, hys⟩ := Option.isSome_iff_exists.mp (isSome_sortRuns? (byRank rank) hsome eager xs)
  exact ⟨ys, hys, sortRuns?_of hsorts mergeable_sorts hys⟩

theorem quicksort?_sorts (limit : Nat) (ancestor : Option α) (xs : List α)
    (hancestor : ∀ p ∈ ancestor, ∀ x ∈ xs, rank p ≤ rank x) :
    ∃ ys, quicksort? (byRank rank) limit ancestor xs = some ys ∧ Sorts rank xs ys := by
  induction limit generalizing ancestor xs with
  | zero =>
    rw [quicksort?]
    split
    · exact sortShort?_sorts xs
    · exact sortRuns?_sorts sortShort?_sorts true xs
  | succ limit ih =>
    rw [quicksort?]
    split
    · exact sortShort?_sorts xs
    · next hlong =>
      have hne : xs ≠ [] := by
        rintro rfl
        exact hlong (Nat.zero_le _)
      obtain ⟨pivot, _, hpivot⟩ := pivot?_mem (byRank rank) hne
      rw [hpivot]
      exact sortAround?_sorts ih hancestor pivot

theorem sortLong?_sorts (xs : List α) :
    ∃ ys, sortLong? (byRank rank) xs = some ys ∧ Sorts rank xs ys :=
  quicksort?_sorts _ none xs (by simp)

end Ranks

end Rollup
