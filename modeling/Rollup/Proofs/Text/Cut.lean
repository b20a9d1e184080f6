import Mathlib.Algebra.Ring.Nat
import Rollup.Text.Cut

namespace Rollup.Text

section FirstCut

variable {sep text before after : List Char}

theorem prefix_cut (before sep after : List Char) :
    before ++ sep.dropLast <+: before ++ sep ++ after := by
  rw [List.append_assoc, List.prefix_append_right_inj]
  exact (List.dropLast_prefix sep).trans (List.prefix_append sep after)

theorem infix_of_prefix_cut (hne : sep ≠ []) {c : Char}
    (h : sep <+: c :: before ++ sep ++ after) : sep <:+: c :: before ++ sep.dropLast := by
  have hlength : 0 < sep.length := List.length_pos_iff.mpr hne
  refine (List.prefix_of_prefix_length_le h (prefix_cut (c :: before) sep after) ?_).isInfix
  rw [List.length_append, List.length_cons, List.length_dropLast]
  omega

/-- A text is cut where the separator stands for the first time, so none starts ahead of it. -/
theorem cutFirst?_eq_some_iff (hne : sep ≠ []) :
    cutFirst? sep text = some (before, after) ↔
      text = before ++ sep ++ after ∧ ¬ sep <:+: before ++ sep.dropLast := by
  induction text generalizing before with
  | nil => simp [cutFirst?, hne]
  | cons c text ih =>
    rw [cutFirst?]
    by_cases hstarts : sep <+: c :: text
    · obtain ⟨rest, hrest⟩ := hstarts
      rw [if_pos (List.isPrefixOf_iff_prefix.mpr ⟨rest, hrest⟩), ← hrest, List.drop_left,
        Option.some.injEq, Prod.mk.injEq]
      constructor
      · rintro ⟨rfl, rfl⟩
        refine ⟨rfl, fun hoccurs => ?_⟩
        have hlength : 0 < sep.length := List.length_pos_iff.mpr hne
        have hle := hoccurs.length_le
        rw [List.nil_append, List.length_dropLast] at hle
        omega
      · rintro ⟨htext, hfirst⟩
        cases before with
        | nil => exact ⟨rfl, List.append_cancel_left htext⟩
        | cons b before => exact absurd (infix_of_prefix_cut hne ⟨rest, htext⟩) hfirst
    · rw [if_neg (mt List.isPrefixOf_iff_prefix.mp hstarts), Option.map_eq_some_iff]
      constructor
      · rintro ⟨⟨tail, rest⟩, hcut, heq⟩
        obtain ⟨rfl, rfl⟩ := Prod.mk.inj heq
        obtain ⟨rfl, hfirst⟩ := ih.mp hcut
        refine ⟨rfl, ?_⟩
        rw [List.cons_append, List.infix_cons_iff, not_or]
        exact ⟨fun hstart => hstarts (hstart.trans (prefix_cut (c :: tail) sep rest)), hfirst⟩
      · rintro ⟨htext, hfirst⟩
        cases before with
        | nil => exact absurd ⟨after, htext.symm⟩ hstarts
        | cons b before =>
          obtain ⟨rfl, htail⟩ := List.cons.inj htext
          rw [List.cons_append, List.infix_cons_iff, not_or] at hfirst
          exact ⟨(before, after), ih.mpr ⟨htail, hfirst.2⟩, rfl⟩

theorem cutFirst?_eq_none_iff (hne : sep ≠ []) : cutFirst? sep text = none ↔ ¬ sep <:+: text := by
  induction text with
  | nil => simp [cutFirst?, hne]
  | cons c text ih =>
    rw [cutFirst?, List.infix_cons_iff, not_or, ← ih]
    by_cases hstarts : sep <+: c :: text
    · simp [List.isPrefixOf_iff_prefix.mpr hstarts, hstarts]
    · rw [if_neg (mt List.isPrefixOf_iff_prefix.mp hstarts), Option.map_eq_none_iff]
      simp [hstarts]

end FirstCut

theorem isPrefixOf_map {sep : List Char} {f : Char → Char} (hsep : ∀ c ∈ sep, ∀ x, f x = c ↔ x = c)
    (cs : List Char) : sep.isPrefixOf (cs.map f) = sep.isPrefixOf cs := by
  induction sep generalizing cs with
  | nil => simp
  | cons c sep ih =>
    cases cs with
    | nil => rfl
    | cons x cs =>
      obtain ⟨hc, hrest⟩ := List.forall_mem_cons.mp hsep
      have hfirst : (c == f x) = (c == x) := by
        rw [Bool.eq_iff_iff, beq_iff_eq, beq_iff_eq, eq_comm, hc, eq_comm]
      rw [List.map_cons, List.isPrefixOf_cons_cons, List.isPrefixOf_cons_cons, hfirst, ih hrest]

theorem cutFirst?_map {sep : List Char} {f : Char → Char} (hsep : ∀ c ∈ sep, ∀ x, f x = c ↔ x = c)
    (cs : List Char) :
    cutFirst? sep (cs.map f) = (cutFirst? sep cs).map (Prod.map (List.map f) (List.map f)) := by
  induction cs with
  | nil => rfl
  | cons x cs ih =>
    have hstarts := isPrefixOf_map hsep (x :: cs)
    rw [List.map_cons] at hstarts
    rw [List.map_cons, cutFirst?, cutFirst?, hstarts, ih]
    split
    · rw [← List.map_cons, ← List.map_drop]
      rfl
    · rw [Option.map_map, Option.map_map]
      rfl

theorem cutFirst?_of_not_mem {sep : Char} {cs : List Char} (h : sep ∉ cs) :
    cutFirst? [sep] cs = none :=
  (cutFirst?_eq_none_iff (List.cons_ne_nil _ _)).mpr fun hoccurs => h (hoccurs.subset (by simp))

theorem cutFirst?_append {sep : Char} {before : List Char} (h : sep ∉ before) (after : List Char) :
    cutFirst? [sep] (before ++ sep :: after) = some (before, after) := by
  rw [cutFirst?_eq_some_iff (List.cons_ne_nil _ _), List.append_assoc]
  refine ⟨rfl, fun hoccurs => h ?_⟩
  rw [List.dropLast_singleton, List.append_nil] at hoccurs
  exact hoccurs.subset (List.mem_singleton_self sep)

theorem cutLast?_of_not_mem {sep : Char} {cs : List Char} (h : sep ∉ cs) :
    cutLast? sep cs = none := by
  rw [cutLast?, cutFirst?_of_not_mem (by rwa [List.mem_reverse]), Option.map_none]

theorem cutLast?_append {sep : Char} (before : List Char) {after : List Char} (h : sep ∉ after) :
    cutLast? sep (before ++ sep :: after) = some (before, after) := by
  have hrev : (before ++ sep :: after).reverse = after.reverse ++ sep :: before.reverse := by simp
  rw [cutLast?, hrev, cutFirst?_append (by rwa [List.mem_reverse])]
  simp only [Option.map_some, List.reverse_reverse]

theorem count_intercalate (c : Char) (sep : List Char) {parts : List (List Char)}
    (hne : parts ≠ []) :
    (sep.intercalate parts).count c + sep.count c =
      (parts.map (List.count c)).sum + parts.length * sep.count c := by
  induction parts with
  | nil => exact absurd rfl hne
  | cons part parts ih =>
    by_cases hrest : parts = []
    · simp [hrest]
    · have ih := ih hrest
      rw [List.intercalate_cons_of_ne_nil hrest, List.count_append, List.count_append,
        List.map_cons, List.sum_cons, List.length_cons, Nat.succ_mul]
      omega

theorem count_separators {sep : Char} {parts : List (List Char)} (hne : parts ≠ [])
    (hapart : ∀ part ∈ parts, sep ∉ part) :
    ([sep].intercalate parts).count sep + 1 = parts.length := by
  have hcount := count_intercalate sep [sep] hne
  have hnone : (parts.map (List.count sep)).sum = 0 := by
    rw [List.sum_eq_zero_iff_forall_eq_nat, List.forall_mem_map]
    exact fun part hpart => List.count_eq_zero.mpr (hapart part hpart)
  rw [hnone] at hcount
  simpa using hcount

theorem pieces_ne_nil (sep : Char) (s : String) : pieces sep s ≠ [] := by
  rw [pieces, Ne, List.map_eq_nil_iff]
  exact List.splitOn_ne_nil sep s.toList

theorem splitOn_cons_self (sep : Char) (xs : List Char) :
    (sep :: xs).splitOn sep = [] :: xs.splitOn sep := by
  rw [List.splitOn_cons_eq_if_modifyHead, if_pos BEq.rfl]

theorem splitOn_append_of_not_mem {sep : Char} {xs : List Char} (h : sep ∉ xs) (ys : List Char) :
    (xs ++ ys).splitOn sep = (ys.splitOn sep).modifyHead (xs ++ ·) := by
  induction xs with
  | nil =>
    obtain ⟨piece, pieces, hp⟩ := List.exists_cons_of_ne_nil (List.splitOn_ne_nil sep ys)
    rw [List.nil_append, hp]
    rfl
  | cons x xs ih =>
    rw [List.mem_cons, not_or] at h
    obtain ⟨piece, pieces, hp⟩ := List.exists_cons_of_ne_nil (List.splitOn_ne_nil sep ys)
    rw [List.cons_append, List.splitOn_cons_eq_if_modifyHead, if_neg (by simpa using Ne.symm h.1),
      ih h.2, hp]
    rfl

theorem splitOn_flatMap {sep : Char} {f : Char → List Char} (hsep : f sep = [sep])
    (hother : ∀ x, x ≠ sep → sep ∉ f x) (xs : List Char) :
    (xs.flatMap f).splitOn sep = (xs.splitOn sep).map (List.flatMap f) := by
  induction xs with
  | nil => rfl
  | cons x xs ih =>
    rw [List.flatMap_cons]
    by_cases hx : x = sep
    · subst hx
      rw [hsep, List.singleton_append, splitOn_cons_self, splitOn_cons_self, ih]
      rfl
    · obtain ⟨piece, pieces, hp⟩ := List.exists_cons_of_ne_nil (List.splitOn_ne_nil sep xs)
      rw [splitOn_append_of_not_mem (hother x hx), ih, List.splitOn_cons_eq_if_modifyHead,
        if_neg (by simpa using hx), hp]
      rfl

theorem splitOnP_map (p : Char → Bool) (f : Char → Char) (xs : List Char) :
    (xs.map f).splitOnP p = (xs.splitOnP (p ∘ f)).map (List.map f) := by
  induction xs with
  | nil => rfl
  | cons x xs ih =>
    obtain ⟨piece, pieces, hp⟩ := List.exists_cons_of_ne_nil (List.splitOnP_ne_nil (p ∘ f) xs)
    rw [List.map_cons, List.splitOnP_cons_eq_if_modifyHead, List.splitOnP_cons_eq_if_modifyHead,
      ih, hp, Function.comp_apply]
    split <;> rfl

theorem splitOn_map {sep : Char} {f : Char → Char} (hsep : ∀ x, f x = sep ↔ x = sep)
    (xs : List Char) :
    (xs.map f).splitOn sep = (xs.splitOn sep).map (List.map f) := by
  have hsame : (· == sep) ∘ f = (· == sep) := by
    funext x
    rw [Function.comp_apply, Bool.eq_iff_iff, beq_iff_eq, beq_iff_eq, hsep]
  rw [List.splitOn, List.splitOn, splitOnP_map, hsame]

theorem not_mem_of_mem_splitOn {sep : Char} {cs part : List Char} (h : part ∈ cs.splitOn sep) :
    sep ∉ part := by
  induction cs generalizing part with
  | nil =>
    rw [List.splitOn_nil, List.mem_singleton] at h
    rw [h]
    exact List.not_mem_nil
  | cons c cs ih =>
    obtain ⟨first, rest, hsplit⟩ := List.exists_cons_of_ne_nil (List.splitOn_ne_nil sep cs)
    rw [List.splitOn_cons_eq_if_modifyHead] at h
    split at h
    · obtain rfl | h := List.mem_cons.mp h
      · exact List.not_mem_nil
      · exact ih h
    · next hne =>
      rw [hsplit] at h ih
      obtain rfl | h := List.mem_cons.mp h
      · rw [List.mem_cons, not_or]
        exact ⟨fun he => hne (beq_iff_eq.mpr he.symm), ih (by simp)⟩
      · exact ih (by simp [h])

theorem length_splitOn (sep : Char) (cs : List Char) :
    (cs.splitOn sep).length = cs.count sep + 1 := by
  have hcount := count_separators (List.splitOn_ne_nil sep cs) fun part hpart =>
    not_mem_of_mem_splitOn hpart
  rw [List.intercalate_splitOn] at hcount
  exact hcount.symm

theorem nil_mem_splitOn {sep : Char} {cs : List Char}
    (h : cs.head? = some sep ∨ cs.getLast? = some sep ∨ [sep, sep] <:+: cs) :
    [] ∈ cs.splitOn sep := by
  obtain h | h | ⟨before, after, rfl⟩ := h
  · obtain ⟨rest, rfl⟩ := List.head?_eq_some_iff.mp h
    rw [splitOn_cons_self]
    exact List.mem_cons_self
  · obtain ⟨before, rfl⟩ := List.getLast?_eq_some_iff.mp h
    rw [List.splitOn_append_cons_self]
    exact List.mem_append_right _ List.mem_cons_self
  · rw [List.append_assoc, List.cons_append, List.splitOn_append_cons_self, List.singleton_append,
      splitOn_cons_self]
    exact List.mem_append_right _ List.mem_cons_self

end Rollup.Text
