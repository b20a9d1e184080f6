import Mathlib.Data.List.Count
import Rollup.Proofs.Sorting.Quick

namespace Rollup

variable {α : Type} (below : α → α → Bool)

theorem sort?_perm {xs ys : List α} (h : sort? below xs = some ys) : ys.Perm xs := by
  rw [sort?] at h
  split at h
  · obtain rfl := Option.some.inj h
    exact sortBy_perm below xs
  · split at h
    · exact sortRuns?_perm (fun _ _ => sortShort?_perm below) h
    · exact sortRuns?_perm (fun _ _ => quicksort?_perm) h

theorem sort?_byRank (rank : α → Int) (xs : List α) :
    sort? (byRank rank) xs = some (sortBy (byRank rank) xs) := by
  rw [sort?]
  split
  · rfl
  · split
    · obtain ⟨ys, hys, hsorts⟩ := sortRuns?_sorts sortShort?_sorts true xs
      rw [hys, hsorts.unique (.sortBy xs)]
    · obtain ⟨ys, hys, hsorts⟩ := sortRuns?_sorts sortLong?_sorts false xs
      rw [hys, hsorts.unique (.sortBy xs)]

/-- On the elements of a list, not to stand below is a preorder in which any two are related. -/
structure OrderedOn (xs : List α) : Prop where
  asymm : ∀ a ∈ xs, ∀ b ∈ xs, below a b = true → below b a = false
  trans : ∀ a ∈ xs, ∀ b ∈ xs, ∀ c ∈ xs, below a b = false → below b c = false → below a c = false

section Sorted

variable {below}

theorem OrderedOn.subset {xs : List α} (h : OrderedOn below xs) (ys : List α) (hsub : ys ⊆ xs) :
    OrderedOn below ys where
  asymm a ha b hb := h.asymm a (hsub ha) b (hsub hb)
  trans a ha b hb c hc := h.trans a (hsub ha) b (hsub hb) c (hsub hc)

theorem OrderedOn.of_map {β : Type} {f : β → α} {xs : List β} (h : OrderedOn below (xs.map f)) :
    OrderedOn (fun a b => below (f a) (f b)) xs where
  asymm _ ha _ hb := h.asymm _ (List.mem_map_of_mem ha) _ (List.mem_map_of_mem hb)
  trans _ ha _ hb _ hc :=
    h.trans _ (List.mem_map_of_mem ha) _ (List.mem_map_of_mem hb) _ (List.mem_map_of_mem hc)

theorem OrderedOn.flip {xs : List α} (h : OrderedOn below xs) :
    OrderedOn (fun a b => below b a) xs where
  asymm a ha b hb := h.asymm b hb a ha
  trans a ha b hb c hc hab hbc := h.trans c hc b hb a ha hbc hab

theorem OrderedOn.exists_rank {xs : List α} (h : OrderedOn below xs) :
    ∃ rank : {x // x ∈ xs} → Int, (fun a b => below a.1 b.1) = byRank rank := by
  refine ⟨fun a => xs.countP (below · a.1), ?_⟩
  funext ⟨a, ha⟩ ⟨b, hb⟩
  rw [byRank, Bool.eq_iff_iff, decide_eq_true_eq, Int.ofNat_lt]
  constructor
  · intro hab
    have hall : ∀ x ∈ xs, below x a = true → below x b = true := by
      intro x hx hxa
      by_contra hxb
      rw [h.trans x hx b hb a ha (Bool.eq_false_iff.mpr hxb) (h.asymm a ha b hb hab)] at hxa
      cases hxa
    have haa : below a a = false := by
      by_contra haa
      rw [Bool.not_eq_false] at haa
      rw [h.asymm a ha a ha haa] at haa
      cases haa
    calc xs.countP (below · a)
      _ = (xs.filter (below · b)).countP (below · a) := by
        rw [List.countP_filter]
        exact List.countP_congr fun x hx => by simpa using hall x hx
      _ < (xs.filter (below · b)).length :=
        List.countP_lt_length_iff.mpr ⟨a, List.mem_filter.mpr ⟨ha, hab⟩, haa⟩
      _ = xs.countP (below · b) := List.countP_eq_length_filter.symm
  · intro hlt
    by_contra hab
    refine Nat.not_le.mpr hlt (List.countP_mono_left fun x hx hxb => ?_)
    by_contra hxa
    rw [h.trans x hx a ha b hb (Bool.eq_false_iff.mpr hxa) (Bool.eq_false_iff.mpr hab)] at hxb
    cases hxb

theorem sort?_eq_sortBy {xs : List α} (h : OrderedOn below xs) :
    sort? below xs = some (sortBy below xs) := by
  obtain ⟨rank, hrank⟩ := h.exists_rank
  have hsort := sort?_map below Subtype.val xs.attach
  have hsortBy := sortBy_map below Subtype.val xs.attach
  rw [List.attach_map_subtype_val, hrank] at hsort hsortBy
  rw [hsort, sort?_byRank, hsortBy]
  rfl

/-- The sort fails on no list that is short or ordered. -/
theorem sort?_eq_none {xs : List α} (h : sort? below xs = none) :
    20 < xs.length ∧ ¬ OrderedOn below xs := by
  constructor
  · by_contra hlen
    rw [sort?, if_pos (by omega)] at h
    cases h
  · intro hordered
    rw [sort?_eq_sortBy hordered] at h
    cases h

/-- Of two elements that are sorted as equals the one that was ahead stays ahead. -/
theorem sortBy_stable {r : α → α → Prop} {xs : List α} (h : OrderedOn below xs)
    (hxs : xs.Pairwise r) :
    (sortBy below xs).Pairwise fun a b => below b a = false ∧ (below a b = false → r a b) := by
  obtain ⟨rank, hrank⟩ := h.exists_rank
  have hmap := sortBy_map below Subtype.val xs.attach
  rw [List.attach_map_subtype_val, hrank] at hmap
  rw [← List.attach_map_subtype_val xs, List.pairwise_map] at hxs
  rw [hmap, List.pairwise_map]
  refine ((Sorts.sortBy xs.attach).pairwise hxs).imp fun {a b} hab => ?_
  have hbelow (a b : {x // x ∈ xs}) : below a.1 b.1 = decide (rank a < rank b) :=
    congrFun (congrFun hrank a) b
  rw [hbelow, hbelow, decide_eq_false_iff_not, decide_eq_false_iff_not]
  exact ⟨by omega, fun hba => hab.2 (by omega)⟩

theorem sortBy_sorted {xs : List α} (h : OrderedOn below xs) :
    (sortBy below xs).Pairwise fun a b => below b a = false := by
  have hxs : xs.Pairwise fun _ _ => True := List.pairwise_of_forall fun _ _ => trivial
  exact (sortBy_stable h hxs).imp And.left

end Sorted

section Positions

variable {β : Type}

def positions (xs : List α) : List Nat :=
  (sortBy (fun a b => below a.1 b.1) xs.zipIdx).map Prod.snd

theorem positions_perm (xs : List α) : (positions below xs).Perm (List.range xs.length) := by
  have hperm := (sortBy_perm (fun a b => below a.1 b.1) xs.zipIdx).map Prod.snd
  rwa [List.zipIdx_map_snd, ← List.range_eq_range'] at hperm

theorem filterMap_positions {xs : List α} {placed : List (α × Nat)}
    (h : ∀ a ∈ placed, xs[a.2]? = some a.1) :
    (placed.map Prod.snd).filterMap (xs[·]?) = placed.map Prod.fst := by
  rw [List.filterMap_map, ← List.filterMap_eq_map']
  exact List.filterMap_congr h

/-- To sort by a feature is to list by the positions that the features take. -/
theorem sortBy_eq_positions (f : β → α) (xs : List β) :
    sortBy (fun a b => below (f a) (f b)) xs =
      (positions below (xs.map f)).filterMap (xs[·]?) := by
  have hplaces : positions below (xs.map f) =
      (sortBy (fun a b => below (f a.1) (f b.1)) xs.zipIdx).map Prod.snd := by
    rw [positions, List.zipIdx_map, sortBy_map, List.map_map]
    rfl
  have hplaced : ∀ a ∈ sortBy (fun a b => below (f a.1) (f b.1)) xs.zipIdx,
      xs[a.2]? = some a.1 := by
    intro a ha
    exact List.mem_zipIdx_iff_getElem?.mp ((sortBy_perm _ _).mem_iff.mp ha)
  have hsort := sortBy_map (fun a b => below (f a) (f b)) Prod.fst xs.zipIdx
  rw [List.zipIdx_map_fst] at hsort
  rw [hsort, hplaces, filterMap_positions hplaced]

variable {below}

theorem positions_stable {xs : List α} (h : OrderedOn below xs) :
    (positions below xs).Pairwise fun i j => ∃ a b, xs[i]? = some a ∧ xs[j]? = some b ∧
      below b a = false ∧ (below a b = false → i < j) := by
  rw [← List.zipIdx_map_fst 0 xs] at h
  have hplaces : xs.zipIdx.Pairwise fun a b => a.2 < b.2 := by
    rw [← List.pairwise_map, List.zipIdx_map_snd]
    exact List.pairwise_lt_range' 1
  rw [positions, List.pairwise_map]
  apply (sortBy_stable h.of_map hplaces).imp_of_mem
  intro a b ha hb hab
  rw [(sortBy_perm _ _).mem_iff, List.mem_zipIdx_iff_getElem?] at ha hb
  exact ⟨a.1, b.1, ha, hb, hab⟩

end Positions

section Repeats

variable {same : α → α → Bool}

theorem dropRepeatsAfter_sublist (x : α) (xs : List α) :
    (dropRepeatsAfter same x xs).Sublist xs := by
  induction xs generalizing x with
  | nil => exact .slnil
  | cons y xs ih =>
    rw [dropRepeatsAfter]
    split
    · exact (ih x).cons y
    · exact (ih y).cons_cons y

theorem dropRepeats_sublist (xs : List α) : (dropRepeats same xs).Sublist xs := by
  cases xs with
  | nil => exact .slnil
  | cons x xs => exact (dropRepeatsAfter_sublist x xs).cons_cons x

theorem exists_kept_after (x : α) {xs : List α} {z : α} (hz : z ∈ xs) :
    ∃ w ∈ x :: dropRepeatsAfter same x xs, w = z ∨ same w z = true := by
  induction xs generalizing x with
  | nil => cases hz
  | cons y xs ih =>
    rw [dropRepeatsAfter]
    split
    · next hsame =>
      obtain rfl | hz := List.mem_cons.mp hz
      · exact ⟨x, by simp, .inr hsame⟩
      · exact ih x hz
    · obtain rfl | hz := List.mem_cons.mp hz
      · exact ⟨z, by simp, .inl rfl⟩
      · obtain ⟨w, hw, hwz⟩ := ih y hz
        exact ⟨w, List.mem_cons_of_mem x hw, hwz⟩

theorem exists_kept {xs : List α} {z : α} (hz : z ∈ xs) :
    ∃ w ∈ dropRepeats same xs, w = z ∨ same w z = true := by
  cases xs with
  | nil => cases hz
  | cons x xs =>
    obtain rfl | hz := List.mem_cons.mp hz
    · exact ⟨z, by simp [dropRepeats], .inl rfl⟩
    · exact exists_kept_after x hz

variable {below} (hsame : ∀ a b, below a b = false → below b a = false → same a b = true)
include hsame

theorem dropRepeatsAfter_ascending {x : α} {xs : List α} (h : OrderedOn below (x :: xs))
    (hsorted : (x :: xs).Pairwise fun a b => below b a = false) :
    (x :: dropRepeatsAfter same x xs).Pairwise fun a b => below a b = true := by
  induction xs generalizing x with
  | nil => exact List.pairwise_singleton _ x
  | cons y xs ih =>
    rw [List.pairwise_cons] at hsorted
    have hxy : below y x = false := hsorted.1 y (by simp)
    rw [dropRepeatsAfter]
    split
    · have hrest : (x :: xs).Pairwise fun a b => below b a = false := by
        rw [List.pairwise_cons]
        exact ⟨fun z hz => hsorted.1 z (by simp [hz]), hsorted.2.of_cons⟩
      exact ih (h.subset _ (by simp)) hrest
    · next hdiffers =>
      have hbelow : below x y = true := by
        by_contra hnot
        exact hdiffers (hsame x y (Bool.eq_false_iff.mpr hnot) hxy)
      rw [List.pairwise_cons]
      refine ⟨?_, ih (h.subset _ (by simp)) hsorted.2⟩
      intro z hz
      obtain rfl | hz := List.mem_cons.mp hz
      · exact hbelow
      · -- Beyond `y` nothing can fall back to `x`.
        have hzxs := (dropRepeatsAfter_sublist y xs).subset hz
        have hzy := (List.pairwise_cons.mp hsorted.2).1 z hzxs
        by_contra hnot
        have hxy' := h.trans x (by simp) z (by simp [hzxs]) y (by simp)
          (Bool.eq_false_iff.mpr hnot) hzy
        rw [hbelow] at hxy'
        cases hxy'

theorem dropRepeats_ascending {xs : List α} (h : OrderedOn below xs)
    (hsorted : xs.Pairwise fun a b => below b a = false) :
    (dropRepeats same xs).Pairwise fun a b => below a b = true := by
  cases xs with
  | nil => exact .nil
  | cons x xs => exact dropRepeatsAfter_ascending hsame h hsorted

end Repeats

end Rollup
