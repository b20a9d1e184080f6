import Mathlib.Data.List.Induction
import Mathlib.Data.List.Nodup

namespace Rollup.FirstMentions

variable {σ : Type} [BEq σ] [LawfulBEq σ]

theorem eraseDups_concat (xs : List σ) (x : σ) :
    (xs ++ [x]).eraseDups = if x ∈ xs then xs.eraseDups else xs.eraseDups ++ [x] := by
  rw [List.eraseDups_append]
  by_cases h : x ∈ xs <;> simp [List.removeAll, List.eraseDups_cons, h]

theorem eraseDups_nodup (xs : List σ) : xs.eraseDups.Nodup := by
  induction xs using List.reverseRecOn with
  | nil => exact List.nodup_nil
  | append_singleton xs x ih =>
    rw [eraseDups_concat]
    split
    · exact ih
    · next h =>
      apply ih.append (List.nodup_singleton x)
      rw [List.disjoint_singleton, List.mem_eraseDups]
      exact h

theorem eraseDups_append_eraseDups (xs ys : List σ) :
    (xs ++ ys.eraseDups).eraseDups = (xs ++ ys).eraseDups := by
  induction ys using List.reverseRecOn with
  | nil => rfl
  | append_singleton ys y ih =>
    have hmem : y ∈ xs ++ ys.eraseDups ↔ y ∈ xs ++ ys := by
      rw [List.mem_append, List.mem_append, List.mem_eraseDups]
    rw [← List.append_assoc, eraseDups_concat (xs ++ ys), eraseDups_concat ys]
    by_cases hy : y ∈ ys
    · rw [if_pos hy, if_pos (List.mem_append_right _ hy), ih]
    · rw [if_neg hy, ← List.append_assoc, eraseDups_concat, ih]
      exact if_congr hmem rfl rfl

theorem eraseDups_of_nodup {xs : List σ} (h : xs.Nodup) : xs.eraseDups = xs := by
  induction xs using List.reverseRecOn with
  | nil => rfl
  | append_singleton xs x ih =>
    rw [List.nodup_append] at h
    have hnew : x ∉ xs := fun hmem => h.2.2 x hmem x (List.mem_singleton_self x) rfl
    rw [eraseDups_concat, if_neg hnew, ih h.1]

theorem map_eraseDups {τ : Type} [BEq τ] [LawfulBEq τ] {f : σ → τ} {xs : List σ}
    (h : ∀ a ∈ xs, ∀ b ∈ xs, f a = f b → a = b) :
    xs.eraseDups.map f = (xs.map f).eraseDups := by
  induction xs using List.reverseRecOn with
  | nil => rfl
  | append_singleton xs x ih =>
    have hmem : f x ∈ xs.map f ↔ x ∈ xs := by
      constructor
      · intro hx
        obtain ⟨a, ha, hax⟩ := List.mem_map.mp hx
        exact h a (List.mem_append_left _ ha) x (by simp) hax ▸ ha
      · exact List.mem_map_of_mem
    have hxs := ih fun a ha b hb => h a (List.mem_append_left _ ha) b (List.mem_append_left _ hb)
    rw [List.map_append, List.map_singleton, eraseDups_concat, eraseDups_concat, ← hxs]
    by_cases hx : x ∈ xs
    · rw [if_pos hx, if_pos (hmem.mpr hx)]
    · rw [if_neg hx, if_neg (mt hmem.mp hx), List.map_append, List.map_singleton]

theorem findSome?_eraseDups {τ : Type} (xs : List σ) (f : σ → Option τ) :
    xs.eraseDups.findSome? f = xs.findSome? f := by
  induction xs using List.reverseRecOn with
  | nil => rfl
  | append_singleton xs x ih =>
    rw [eraseDups_concat, List.findSome?_append]
    split
    · next hmem =>
      rw [ih]
      cases hfind : xs.findSome? f with
      | some found => rfl
      | none =>
        have hx := List.findSome?_eq_none_iff.mp hfind x hmem
        simp [hx]
    · rw [List.findSome?_append, ih]

theorem find?_eraseDups (xs : List σ) (p : σ → Bool) : xs.eraseDups.find? p = xs.find? p := by
  rw [← List.findSome?_guard, findSome?_eraseDups, List.findSome?_guard]

end Rollup.FirstMentions
