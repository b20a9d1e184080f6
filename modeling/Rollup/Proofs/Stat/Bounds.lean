import Mathlib.Data.List.Induction
import Rollup.Proofs.Scalar.Kinds
import Rollup.Proofs.Stat.Evaluation

namespace Rollup

namespace Number

variable {numbers : List Number} {m n : Number}

theorem least?_concat (h : least? numbers = some m) (z : Number) :
    least? (numbers ++ [z]) = some (if z.below m then z else m) := by
  cases numbers with
  | nil => cases h
  | cons x xs =>
    cases h
    simp [least?]

theorem greatest?_concat (h : greatest? numbers = some m) (z : Number) :
    greatest? (numbers ++ [z]) = some (if z.below m then m else z) := by
  cases numbers with
  | nil => cases h
  | cons x xs =>
    cases h
    simp [greatest?]

theorem least?_bound (hne : numbers ≠ []) :
    ∃ m ∈ numbers, least? numbers = some m ∧ ∀ n ∈ numbers, n.below m = false := by
  induction numbers using List.reverseRecOn with
  | nil => exact absurd rfl hne
  | append_singleton numbers z ih =>
    obtain rfl | hnumbers := eq_or_ne numbers []
    · exact ⟨z, by simp, rfl, by simpa using below_irrefl z⟩
    obtain ⟨m, hm, hleast, hbound⟩ := ih hnumbers
    rw [least?_concat hleast]
    by_cases hz : z.below m = true
    · refine ⟨z, by simp, by rw [if_pos hz], List.forall_mem_append.mpr ⟨fun n hn => ?_, ?_⟩⟩
      · -- What is less than `z` is less than `m`.
        by_contra hnz
        rw [Bool.not_eq_false] at hnz
        exact Bool.eq_false_iff.mp (hbound n hn) (below_trans hnz hz)
      · simpa using below_irrefl z
    · refine ⟨m, by simp [hm], by rw [if_neg hz], List.forall_mem_append.mpr ⟨hbound, ?_⟩⟩
      simpa using hz

/-- Behind the greatest number found there are only lesser ones. -/
theorem greatest?_split (hne : numbers ≠ []) :
    ∃ m before after, greatest? numbers = some m ∧ numbers = before ++ m :: after ∧
      (∀ n ∈ numbers, n.toReal.place ≤ m.toReal.place) ∧ ∀ n ∈ after, n.below m = true := by
  induction numbers using List.reverseRecOn with
  | nil => exact absurd rfl hne
  | append_singleton numbers z ih =>
    obtain rfl | hnumbers := eq_or_ne numbers []
    · exact ⟨z, [], [], rfl, rfl, by simp, by simp⟩
    obtain ⟨m, before, after, hgreatest, hsplit, hplace, hafter⟩ := ih hnumbers
    rw [greatest?_concat hgreatest]
    by_cases hz : z.below m = true
    · refine ⟨m, before, after ++ [z], by rw [if_pos hz], by simp [hsplit], ?_, ?_⟩
      · refine List.forall_mem_append.mpr ⟨hplace, ?_⟩
        simpa using place_le_of_compare (below_eq_false.mp (below_asymm hz))
      · exact List.forall_mem_append.mpr ⟨hafter, by simpa using hz⟩
    · have hmz : m.toReal.place ≤ z.toReal.place :=
        place_le_of_compare (below_eq_false.mp (Bool.eq_false_iff.mpr hz))
      refine ⟨z, numbers, [], by rw [if_neg hz], rfl, ?_, by simp⟩
      refine List.forall_mem_append.mpr ⟨fun n hn => (hplace n hn).trans hmz, by simp⟩

/-- A number that the greatest one found falls short of: a floating-point number that it rounds to
comes after it, and behind that come only lesser numbers, one of which rounds to it as well. -/
def Lost (numbers : List Number) (n : Number) : Prop :=
  ∃ before x after, numbers = before ++ .real x :: after ∧
    (∀ k ∈ before, k.compare (.real x) ≠ .gt) ∧ n ∈ before ∧ n.compare (.real x) = .eq ∧
    (∃ k ∈ after, k.compare (.real x) = .eq) ∧ ∀ k ∈ after, k.compare n = .lt

theorem Lost.concat (h : Lost numbers n) {z : Number} (hz : z.below n = true) :
    Lost (numbers ++ [z]) n := by
  obtain ⟨before, x, after, rfl, hbefore, hn, hround, ⟨k, hk, hkround⟩, hafter⟩ := h
  refine ⟨before, x, after ++ [z], by simp, hbefore, hn, hround, ⟨k, by simp [hk], hkround⟩, ?_⟩
  exact List.forall_mem_append.mpr ⟨hafter, by simpa using below_eq_true.mp hz⟩

theorem lost_behind {x : Binary64} (hgreatest : greatest? numbers = some (.real x))
    (hn : n ∈ numbers) (hround : n.compare (.real x) = .eq) {z : Number}
    (hzround : z.compare (.real x) = .eq) (hlt : z.below n = true) : Lost (numbers ++ [z]) n := by
  obtain ⟨m, before, after, hm, hsplit, hplace, hafter⟩ :=
    greatest?_split (List.ne_nil_of_mem hn)
  obtain rfl : m = .real x := Option.some.inj (hm.symm.trans hgreatest)
  refine ⟨before, x, after ++ [z], by simp [hsplit], ?_, ?_, hround, ⟨z, by simp, hzround⟩, ?_⟩
  · intro k hk
    rw [compare_real_right, Binary64.total_ne_gt]
    exact hplace k (by simp [hsplit, hk])
  · rw [hsplit, List.mem_append, List.mem_cons] at hn
    obtain hn | rfl | hn := hn
    · exact hn
    · rw [below_eq_true, hzround] at hlt
      cases hlt
    · have hbelow := hafter n hn
      rw [below_eq_true, hround] at hbelow
      cases hbelow
  · refine List.forall_mem_append.mpr ⟨fun k hk => ?_, by simpa using below_eq_true.mp hlt⟩
    exact below_eq_true.mp (below_of_rounds (hafter k hk) hround)

theorem lost_of_below (h : greatest? numbers = some m) (hn : n ∈ numbers)
    (hlt : m.below n = true) : Lost numbers n := by
  induction numbers using List.reverseRecOn generalizing m with
  | nil => cases hn
  | append_singleton numbers z ih =>
    obtain rfl | hnumbers := eq_or_ne numbers []
    · obtain rfl : n = z := by simpa using hn
      obtain rfl : n = m := Option.some.inj h
      rw [below_irrefl] at hlt
      cases hlt
    obtain ⟨g, -, -, hgreatest, -⟩ := greatest?_split hnumbers
    rw [greatest?_concat hgreatest, Option.some.injEq] at h
    rw [List.mem_append, List.mem_singleton] at hn
    by_cases hz : z.below g = true
    · rw [if_pos hz] at h
      subst h
      obtain hn | rfl := hn
      · exact (ih hgreatest hn hlt).concat (below_trans hz hlt)
      · exact absurd hlt (Bool.eq_false_iff.mp (below_asymm hz))
    · rw [if_neg hz] at h
      subst h
      obtain hn | rfl := hn
      · by_cases hgn : g.below n = true
        · exact (ih hgreatest hn hgn).concat hlt
        · -- From `n` over the greatest so far to `z` the chain turns around.
          obtain ⟨a, b, x, rfl, rfl, rfl, -, ha, hb⟩ := straddled_of_compare
            (below_eq_false.mp (Bool.eq_false_iff.mpr hgn))
            (below_eq_false.mp (Bool.eq_false_iff.mpr hz)) (compare_eq_gt.mpr hlt)
          exact lost_behind hgreatest hn (compare_real_eq.mpr ha) (compare_real_eq.mpr hb) hlt
      · rw [below_irrefl] at hlt
        cases hlt

theorem greatest?_behind {before : List Number} (hbefore : ∀ k ∈ before, n.below k = false)
    (after : List Number) :
    ∃ m, greatest? (before ++ n :: after) = some m ∧
      (m ∈ after ∨ m = n ∧ ∀ k ∈ after, k.below n = true) := by
  induction after using List.reverseRecOn with
  | nil =>
    obtain rfl | hne := eq_or_ne before []
    · exact ⟨n, rfl, .inr ⟨rfl, by simp⟩⟩
    obtain ⟨g, front, back, hgreatest, hsplit, -⟩ := greatest?_split hne
    have hg : n.below g = false := hbefore g (by simp [hsplit])
    exact ⟨n, by simp [greatest?_concat hgreatest, hg], .inr ⟨rfl, by simp⟩⟩
  | append_singleton after z ih =>
    obtain ⟨m, hm, hbehind⟩ := ih
    rw [← List.cons_append, ← List.append_assoc, greatest?_concat hm]
    by_cases hz : z.below m = true
    · refine ⟨m, by rw [if_pos hz], ?_⟩
      obtain hin | ⟨rfl, hlesser⟩ := hbehind
      · exact .inl (by simp [hin])
      · exact .inr ⟨rfl, List.forall_mem_append.mpr ⟨hlesser, by simpa using hz⟩⟩
    · exact ⟨z, by rw [if_neg hz], .inl (by simp)⟩

theorem Lost.below (h : Lost numbers n) (hgreatest : greatest? numbers = some m) :
    m.below n = true := by
  obtain ⟨before, x, after, rfl, hbefore, -, -, ⟨k, hk, hkround⟩, hafter⟩ := h
  obtain ⟨g, hg, hbehind⟩ :=
    greatest?_behind (fun k hk => below_eq_false.mpr (hbefore k hk)) after
  obtain rfl : m = g := Option.some.inj (hgreatest.symm.trans hg)
  obtain hin | ⟨-, hlesser⟩ := hbehind
  · exact below_eq_true.mpr (hafter m hin)
  · have hbelow := hlesser k hk
    rw [below_eq_true, hkround] at hbelow
    cases hbelow

/-- The greatest number found is one of the numbers, and none is greater beyond rounding. Those that
are greater nevertheless are the lost ones. -/
theorem greatest?_bound (hne : numbers ≠ []) :
    ∃ m ∈ numbers, greatest? numbers = some m ∧
      (∀ n ∈ numbers, n.toReal.total m.toReal ≠ .gt) ∧
      ∀ n ∈ numbers, n.compare m = .gt ↔ Lost numbers n := by
  obtain ⟨m, before, after, hgreatest, hsplit, hplace, -⟩ := greatest?_split hne
  refine ⟨m, by simp [hsplit], hgreatest, fun n hn => Binary64.total_ne_gt.mpr (hplace n hn), ?_⟩
  intro n hn
  rw [compare_eq_gt]
  exact ⟨lost_of_below hgreatest hn, fun hlost => hlost.below hgreatest⟩

theorem Lost.straddled (h : Lost numbers n) :
    n ∈ numbers ∧ ∃ x ∈ numbers, ∃ k ∈ numbers, Straddled n x k := by
  obtain ⟨before, x, after, rfl, -, hn, hround, ⟨k, hk, hkround⟩, hafter⟩ := h
  refine ⟨by simp [hn], .real x, by simp, k, by simp [hk], ?_⟩
  apply straddled_of_compare
  · rw [hround]
    exact nofun
  · rw [compare_swap, hkround]
    exact nofun
  · rw [compare_swap, hafter k hk]
    rfl

section Unmixed

variable {others : List Number}

theorem greatest?_bound_of_unmixed (h : Unmixed numbers) (hne : numbers ≠ []) :
    ∃ m ∈ numbers, greatest? numbers = some m ∧ ∀ n ∈ numbers, m.below n = false := by
  obtain ⟨m, hm, hgreatest, -, hlost⟩ := greatest?_bound hne
  refine ⟨m, hm, hgreatest, fun n hn => ?_⟩
  rw [below_eq_false, Ne, hlost n hn]
  intro hn
  obtain ⟨hmem, x, hx, k, -, hs⟩ := hn.straddled
  exact h.not_straddled hmem hx k hs

theorem bound_congr (h : Unmixed numbers) (hsame : ∀ n, n ∈ others ↔ n ∈ numbers)
    {find : List Number → Option Number} {r : Number → Number → Prop}
    (hfind : ∀ {xs}, Unmixed xs → xs ≠ [] → ∃ m ∈ xs, find xs = some m ∧ ∀ n ∈ xs, r m n)
    (hantisymm : ∀ {a b}, a ∈ numbers → b ∈ numbers → r a b → r b a → a = b) :
    find others = find numbers := by
  obtain rfl | hne := eq_or_ne numbers []
  · rw [List.eq_nil_iff_forall_not_mem.mpr fun n hn => List.not_mem_nil ((hsame n).mp hn)]
  have hothers : Unmixed others := fun n x hn hx => h n x ((hsame _).mp hn) ((hsame _).mp hx)
  obtain ⟨m, hm, hnumbers, hbound⟩ := hfind h hne
  obtain ⟨k, hk, hfound, hkbound⟩ := hfind hothers (List.ne_nil_of_mem ((hsame m).mpr hm))
  rw [hsame] at hk
  rw [hfound, hnumbers, hantisymm hk hm (hkbound m ((hsame m).mpr hm)) (hbound k hk)]

theorem least?_congr (h : Unmixed numbers) (hsame : ∀ n, n ∈ others ↔ n ∈ numbers) :
    least? others = least? numbers :=
  bound_congr h hsame (fun _ => least?_bound) fun ha hb hab hba => h.eq_of_not_below ha hb hba hab

theorem greatest?_congr (h : Unmixed numbers) (hsame : ∀ n, n ∈ others ↔ n ∈ numbers) :
    greatest? others = greatest? numbers :=
  bound_congr h hsame greatest?_bound_of_unmixed h.eq_of_not_below

end Unmixed

end Number

namespace Stat

open Number (Lost)

/-- The values that are reduced: all of them, or one of each, which ascend where no three of the
values straddle. -/
structure Kept (stat : Stat) (values kept : List Scalar) : Prop where
  subset : kept ⊆ values
  covers : ∀ v ∈ values, ∃ w ∈ kept, w.compare v = .eq
  all : stat.distinct = false → kept = values
  ascending : stat.distinct = true →
    (∀ a ∈ values, ∀ b ∈ values, ∀ c ∈ values, ¬ a.Straddled b c) →
    kept.Pairwise fun a b => a.compare b = .lt

theorem kept_of_some {stat : Stat} {values kept : List Scalar} (h : stat.kept? values = some kept) :
    stat.Kept values kept := by
  cases hdistinct : stat.distinct with
  | false =>
    rw [kept?_eq_some hdistinct, Option.some.injEq] at h
    subst h
    exact ⟨List.Subset.refl _, fun v hv => ⟨v, hv, Scalar.compare_self v⟩, fun _ => rfl,
      fun h => absurd (hdistinct.symm.trans h) Bool.false_ne_true⟩
  | true =>
    rw [kept?, if_pos hdistinct] at h
    exact ⟨Scalar.distinct_subset h, fun v => Scalar.exists_distinct h,
      fun h => absurd (h.symm.trans hdistinct) Bool.false_ne_true,
      fun _ hnone => Scalar.distinct_ascending h (Scalar.orderedOn_below hnone)⟩

/-- No number of a group is less than the least one found, and none is greater beyond rounding than
the greatest one found. The lost ones, and only these, are greater nevertheless, and they straddle
a floating-point number. Only among many distinct values can straddling ones leave no result. -/
theorem evaluate_bounds (stat : Stat) {items : List Item} {values : List Scalar}
    (hne : items ≠ []) (h : items.map (·.field? stat.field) = values.map some) :
    (∀ kept, stat.kept? values = some kept →
      let numbers := kept.map (Scalar.measured (stat.measure.getD .len))
      stat.Kept values kept ∧
      (stat.reduction = .min → ∃ m ∈ numbers, stat.evaluate items = .ok m ∧
        ∀ n ∈ numbers, n.compare m ≠ .lt) ∧
      (stat.reduction = .max → ∃ m ∈ numbers, stat.evaluate items = .ok m ∧
        (∀ n ∈ numbers, n.toReal.total m.toReal ≠ .gt) ∧
        ∀ n ∈ numbers, n.compare m = .gt ↔ Lost numbers n) ∧
      ∀ n, Lost numbers n → ∃ x ∈ numbers, ∃ k ∈ numbers, n.Straddled x k) ∧
    (stat.kept? values = none →
      stat.evaluate items = .error .unordered ∧ stat.distinct = true ∧ Scalar.Tangled values) := by
  have hvalues : values ≠ [] := by
    rintro rfl
    exact hne (List.map_eq_nil_iff.mp h)
  rw [evaluate_eq_reduce h]
  constructor
  · intro kept hkept numbers
    have hreduced : stat.reduced? values = some numbers := congrArg (Option.map _) hkept
    have hnumbers := reduced_ne_nil hreduced hvalues
    refine ⟨kept_of_some hkept, fun hmin => ?_, fun hmax => ?_, fun n hlost => hlost.straddled.2⟩
    · obtain ⟨m, hm, hleast, hbound⟩ := Number.least?_bound hnumbers
      refine ⟨m, hm, reduce_eq_ok hreduced (by rw [hmin]; exact hleast), fun n hn hlt => ?_⟩
      exact Bool.eq_false_iff.mp (hbound n hn) (Number.below_eq_true.mpr hlt)
    · obtain ⟨m, hm, hgreatest, hrounded, hlost⟩ := Number.greatest?_bound hnumbers
      exact ⟨m, hm, reduce_eq_ok hreduced (by rw [hmax]; exact hgreatest), hrounded, hlost⟩
  · intro hnone
    exact ⟨reduce_unordered (Option.map_eq_none_iff.mpr hnone), kept?_eq_none hnone⟩

def neighbours : List Scalar :=
  [.number (.int 9007199254740993), .number (.real (.ofInt 9007199254740992)),
    .number (.int 9007199254740992)]

theorem evaluate_bounds_neighbours :
    Item.holding "gain" neighbours ≠ [] ∧
    (Item.holding "gain" neighbours).map (·.field? "gain") = neighbours.map some ∧
    (∃ m, (Stat.mk "gain" .min none false).evaluate (Item.holding "gain" neighbours) = .ok m ∧
      ∀ n ∈ neighbours.map (Scalar.measured .len), n.compare m ≠ .lt) ∧
    ∃ m, (Stat.mk "gain" .max none false).evaluate (Item.holding "gain" neighbours) = .ok m ∧
      (Number.int 9007199254740993).compare m = .gt := by
  have hne : Item.holding "gain" neighbours ≠ [] := List.cons_ne_nil _ _
  have h := Item.map_field?_holding "gain" neighbours
  refine ⟨hne, h, ?_, ?_⟩
  · obtain ⟨-, hmin, -⟩ := (evaluate_bounds ⟨"gain", .min, none, false⟩ hne h).1 _ rfl
    obtain ⟨m, -, hresult, hbound⟩ := hmin rfl
    exact ⟨m, hresult, hbound⟩
  · obtain ⟨-, -, hmax, -⟩ := (evaluate_bounds ⟨"gain", .max, none, false⟩ hne h).1 _ rfl
    obtain ⟨m, -, hresult, -, hlost⟩ := hmax rfl
    refine ⟨m, hresult, (hlost _ (by decide +kernel)).mpr ?_⟩
    exact ⟨[.int 9007199254740993], .ofInt 9007199254740992, [.int 9007199254740992], rfl,
      by decide +kernel⟩

/-- The greater integer gives way to the number between them, and that to the lesser integer. -/
theorem neighbour_lost :
    (Item.holding "gain" neighbours).map (·.field? "gain") = neighbours.map some ∧
    (Stat.mk "gain" .max none false).evaluate (Item.holding "gain" neighbours) =
      .ok (.int 9007199254740992) ∧
    (Stat.mk "gain" .max none false).kept? neighbours = some neighbours ∧
    .int 9007199254740993 ∈ neighbours.map (Scalar.measured .len) ∧
    (Number.int 9007199254740993).compare (.int 9007199254740992) = .gt := by
  refine ⟨Item.map_field?_holding "gain" neighbours, ?_, rfl, ?_, ?_⟩
  · decide +kernel
  · decide +kernel
  · decide +kernel

end Stat

end Rollup
