import Rollup.Proofs.FirstMentions
import Rollup.Proofs.Scalar.Kinds
import Rollup.Stat.Evaluation

namespace Rollup.Scalar

variable {values : List Scalar}

theorem distinct?_eq_none (h : distinct? values = none) : Tangled values :=
  tangled_of_unsorted (Option.map_eq_none_iff.mp h)

theorem distinct?_eq_some (h : OrderedOn below values) : ∃ kept, distinct? values = some kept :=
  ⟨_, by rw [distinct?, sort?_eq_sortBy h, Option.map_some]⟩

section Kept

variable {kept : List Scalar} (hkept : distinct? values = some kept)
include hkept

theorem distinct_ascending (h : OrderedOn below values) :
    kept.Pairwise fun a b => a.compare b = .lt := by
  rw [distinct?, sort?_eq_sortBy h, Option.map_some, Option.some.injEq] at hkept
  have hordered := h.subset (sortBy below values) (sortBy_perm below values).subset
  have hsame : ∀ a b : Scalar, a.below b = false → b.below a = false →
      (a.compare b == .eq) = true := by
    intro a b hab hba
    rw [below_eq_false, compare_swap] at hab
    rw [below_eq_false] at hba
    cases hcompare : a.compare b with
    | eq => rfl
    | lt => exact absurd (by rw [hcompare]; rfl) hab
    | gt => exact absurd hcompare hba
  rw [← hkept]
  exact (dropRepeats_ascending hsame hordered (sortBy_sorted h)).imp below_eq_true.mp

theorem distinct_subset : kept ⊆ values := by
  obtain ⟨sorted, hsorted, rfl⟩ := Option.map_eq_some_iff.mp hkept
  exact List.Subset.trans (dropRepeats_sublist _).subset (sort?_perm below hsorted).subset

theorem exists_distinct {a : Scalar} (ha : a ∈ values) : ∃ b ∈ kept, b.compare a = .eq := by
  obtain ⟨sorted, hsorted, rfl⟩ := Option.map_eq_some_iff.mp hkept
  have hmem : ∃ b ∈ dropRepeats (fun x y => x.compare y == .eq) sorted,
      b = a ∨ (b.compare a == .eq) = true :=
    exists_kept ((sort?_perm below hsorted).mem_iff.mpr ha)
  obtain ⟨b, hb, rfl | hsame⟩ := hmem
  · exact ⟨b, hb, compare_self b⟩
  · exact ⟨b, hb, eq_of_beq hsame⟩

theorem distinct_ne_nil (h : values ≠ []) : kept ≠ [] := by
  obtain ⟨a, ha⟩ := List.exists_mem_of_ne_nil values h
  obtain ⟨b, hb, -⟩ := exists_distinct hkept ha
  exact List.ne_nil_of_mem hb

end Kept

/-- Each of the values stands once in the list, in ascending order. -/
structure Once (values kept : List Scalar) : Prop where
  ascending : kept.Pairwise fun a b => a.compare b = .lt
  mem_iff : ∀ v, v ∈ kept ↔ v ∈ values

theorem Once.unique {kept other : List Scalar} (h : Once values kept) (h' : Once values other) :
    kept = other := by
  have hnodup {list : List Scalar} (hlist : Once values list) : list.Nodup := by
    refine hlist.ascending.imp ?_
    rintro a b hlt rfl
    rw [compare_self] at hlt
    cases hlt
  have hperm : kept.Perm other :=
    (List.perm_ext_iff_of_nodup (hnodup h) (hnodup h')).mpr fun v =>
      (h.mem_iff v).trans (h'.mem_iff v).symm
  refine hperm.eq_of_pairwise ?_ h.ascending h'.ascending
  intro a b _ _ hab hba
  rw [compare_swap, hba] at hab
  cases hab

theorem Unmixed.once_distinct (h : Unmixed values) :
    ∃ kept, distinct? values = some kept ∧ Once values kept := by
  have hordered := orderedOn_below fun _ ha _ hb c _ => h.not_straddled ha hb c
  obtain ⟨kept, hkept⟩ := distinct?_eq_some hordered
  refine ⟨kept, hkept, distinct_ascending hkept hordered, fun v => ⟨fun hv => ?_, fun hv => ?_⟩⟩
  · exact distinct_subset hkept hv
  · obtain ⟨w, hw, hsame⟩ := exists_distinct hkept hv
    exact h.eq_of_compare (distinct_subset hkept hw) hv hsame ▸ hw

theorem Straddled.not_agree {a b c : Scalar} (h : Straddled a b c) : ¬ (Agree a b ∧ Agree b c) := by
  obtain ⟨x, y, z, rfl, rfl, rfl, hs⟩ := h
  rintro ⟨hab, hbc⟩
  obtain ⟨m, n, r, rfl, rfl, rfl, hlt, hm, hn⟩ := hs
  have hmr : (number (.int m)).compare (.number (.real r)) = .eq := Binary64.total_eq_iff.mpr hm
  have hrn : (number (.real r)).compare (.number (.int n)) = .eq :=
    Binary64.total_eq_iff.mpr hn.symm
  have hslots : Slot.whole m = .whole n := (hab.mp hmr).trans (hbc.mp hrn)
  rw [Slot.whole.inj hslots] at hlt
  exact lt_irrefl _ hlt

theorem length_distinct (h : ∀ a ∈ values, ∀ b ∈ values, Agree a b) :
    ∃ kept, distinct? values = some kept ∧
      kept.length = (values.map slot).eraseDups.length := by
  have hordered : OrderedOn below values := orderedOn_below fun a ha b hb c hc hs =>
    hs.not_agree ⟨h a ha b hb, h b hb c hc⟩
  obtain ⟨kept, hkept⟩ := distinct?_eq_some hordered
  have hnodup : (kept.map slot).Nodup := by
    -- Distinct values ascend strictly, so no two are equal, and none share a slot.
    rw [List.Nodup, List.pairwise_map]
    apply (distinct_ascending hkept hordered).imp_of_mem
    intro a b ha hb hlt hslot
    have heq := (h a (distinct_subset hkept ha) b (distinct_subset hkept hb)).mpr hslot
    rw [hlt] at heq
    cases heq
  have hmem : ∀ s, s ∈ kept.map slot ↔ s ∈ (values.map slot).eraseDups := by
    intro s
    rw [List.mem_eraseDups]
    constructor
    · intro hs
      obtain ⟨a, ha, rfl⟩ := List.mem_map.mp hs
      exact List.mem_map_of_mem (distinct_subset hkept ha)
    · intro hs
      obtain ⟨a, ha, rfl⟩ := List.mem_map.mp hs
      obtain ⟨b, hb, hsame⟩ := exists_distinct hkept ha
      rw [← (h b (distinct_subset hkept hb) a ha).mp hsame]
      exact List.mem_map_of_mem hb
  have hperm := (List.perm_ext_iff_of_nodup hnodup (FirstMentions.eraseDups_nodup _)).mpr hmem
  exact ⟨kept, hkept, by rw [← hperm.length_eq, List.length_map]⟩

end Rollup.Scalar
