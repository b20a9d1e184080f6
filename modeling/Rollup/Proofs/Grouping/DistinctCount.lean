import Rollup.Proofs.Grouping.FanOut
import Rollup.Proofs.Scalar.Distinct
import Rollup.Proofs.Stat.Evaluation
import Rollup.Proofs.Stat.Grammar

namespace Rollup

namespace Stat

def countDistinct (field : String) : Stat := ⟨field, .count, none, true⟩

theorem parse_countDistinct {field : String} (hne : field ≠ "") (hlower : Text.lowercase field = field)
    (hbar : '|' ∉ field.toList) : parse ("count:unique|" ++ field) = .ok (countDistinct field) := by
  have htext : "count:unique|" ++ field =
      String.ofList ("count:unique".toList ++ '|' :: field.toList) := by
    rw [← String.toList_inj]
    simp
  have hcut : CutAtBar ("count:unique|" ++ field).toList "count:unique".toList field.toList := by
    rw [htext, String.toList_ofList]
    exact .barred hbar
  have hcount : Text.lowercase ("count:unique|" ++ field) ≠ "count" := by
    rw [htext]
    exact lowercase_ne_count (by simp)
  refine (parse_eq_ok hcount hcut _).mpr ⟨by simpa using hne, ⟨some .count, none, true⟩, ?_, ?_⟩
  · have htokens : modifierTokens (Text.lower "count:unique".toList) = ["count", "unique"] := by
      decide +kernel
    rw [htokens]
    rfl
  · have hfield : String.ofList (Text.lower field.toList) = field := hlower
    rw [hfield]
    rfl

theorem evaluate_countDistinct {field : String} {items : List Item} {values kept : List Scalar}
    (h : items.map (·.field? field) = values.map some) (hkept : Scalar.distinct? values = some kept) :
    (countDistinct field).evaluate items = .ok (.ofNat kept.length) := by
  have hreduced : (countDistinct field).reduced? values = some (kept.map (Scalar.measured .len)) :=
    congrArg (Option.map _) hkept
  have hcount : (countDistinct field).reduce values = .ok (.ofNat kept.length) :=
    reduce_eq_ok hreduced (by simp only [countDistinct, Reduction.reduce?, List.length_map])
  exact (evaluate_eq_reduce h).trans hcount

end Stat

namespace Grouping

theorem length_groupBy {α : Type} {category : String} {value? : α → Option Scalar}
    {elements : List α} {values : List Scalar} (hcategory : category ∉ listCategories)
    (h : elements.map value? = values.map some) :
    ∃ groups, groupBy category value? elements = .ok groups ∧
      groups.length = (values.map Scalar.slot).eraseDups.length := by
  have hforall := Traversal.forall₂_of_map h
  have hstream : Streams category value? elements (values.zip elements) := by
    clear h
    induction hforall with
    | nil => exact .nil
    | cons hvalue _ ih =>
      exact .cons hvalue (.itself fun hc => absurd hc hcategory) ih
  refine ⟨_, groupBy_streams hstream, ?_⟩
  have hkeys : (values.zip elements).map Prod.fst = values :=
    List.map_fst_zip hforall.length_eq.ge
  have hslots : (values.zip elements).map slotOf = values.map Scalar.slot :=
    calc (values.zip elements).map slotOf
        = ((values.zip elements).map Prod.fst).map Scalar.slot := List.map_map.symm
      _ = values.map Scalar.slot := by rw [hkeys]
  rw [← hslots, ← (gather_fannedOut _).slots, List.length_map]

theorem length_distinct_pair (a b : Scalar) : ∃ kept, Scalar.distinct? [a, b] = some kept ∧
    kept.length = if a.compare b = .eq then 1 else 2 := by
  have hswap := Scalar.compare_swap b a
  refine ⟨_, rfl, ?_⟩
  cases hcompare : a.compare b <;> rw [hcompare] at hswap <;>
    simp [sortBy, insertAll, insertDown, dropRepeats, dropRepeatsAfter, Scalar.below, hcompare,
      hswap]

theorem length_slots_pair (a b : Scalar) :
    ([a, b].map Scalar.slot).eraseDups.length = if a.slot = b.slot then 1 else 2 := by
  have hconcat : ([a, b].map Scalar.slot).eraseDups =
      if b.slot ∈ [a.slot] then [a.slot].eraseDups else [a.slot].eraseDups ++ [b.slot] :=
    FirstMentions.eraseDups_concat [a.slot] b.slot
  rw [hconcat]
  by_cases h : a.slot = b.slot
  · rw [if_pos (by simp [h]), if_pos h]
    rfl
  · rw [if_neg (by simpa using Ne.symm h), if_neg h]
    rfl

/-- Values that do not clash fall into as many groups as a count of them finds distinct. A clash
makes a difference already between two items. -/
theorem groups_eq_countDistinct (field : String) (hfield : field ∉ listCategories) :
    (∀ (items : List Item) (values : List Scalar), items.map (·.field? field) = values.map some →
      (∀ a ∈ values, ∀ b ∈ values, ¬ Scalar.Clash a b) →
      ∃ groups, groupBy field (·.field? field) items = .ok groups ∧
        (Stat.countDistinct field).evaluate items = .ok (.ofNat groups.length)) ∧
    (∀ (x y : Item) (a b : Scalar), x.field? field = some a → y.field? field = some b →
      ((∃ groups, groupBy field (·.field? field) [x, y] = .ok groups ∧
        (Stat.countDistinct field).evaluate [x, y] = .ok (.ofNat groups.length)) ↔
        ¬ (Scalar.Clash a b ∨ Scalar.Clash b a))) ∧
    (field ≠ "" → Text.lowercase field = field → '|' ∉ field.toList →
      Stat.parse ("count:unique|" ++ field) = .ok (Stat.countDistinct field)) := by
  refine ⟨?_, ?_, Stat.parse_countDistinct⟩
  · intro items values hvalues hclash
    obtain ⟨groups, hgroups, hlength⟩ := length_groupBy hfield hvalues
    have hagree : ∀ a ∈ values, ∀ b ∈ values, Scalar.Agree a b := fun a ha b hb =>
      (Scalar.agree_iff_not_clash a b).mpr (not_or.mpr ⟨hclash a ha b hb, hclash b hb a ha⟩)
    obtain ⟨kept, hkept, hcount⟩ := Scalar.length_distinct hagree
    refine ⟨groups, hgroups, ?_⟩
    rw [Stat.evaluate_countDistinct hvalues hkept, hcount, hlength]
  · intro x y a b hx hy
    have hvalues : [x, y].map (·.field? field) = [a, b].map some := by simp [hx, hy]
    obtain ⟨groups, hgroups, hlength⟩ := length_groupBy hfield hvalues
    rw [length_slots_pair] at hlength
    obtain ⟨kept, hkept, hcount⟩ := length_distinct_pair a b
    rw [← Scalar.agree_iff_not_clash, Stat.evaluate_countDistinct hvalues hkept, hcount, hgroups]
    simp only [Except.ok.injEq, exists_eq_left', hlength, Scalar.Agree]
    by_cases hcompare : a.compare b = .eq <;> by_cases hslot : a.slot = b.slot <;>
      simp [hcompare, hslot, Number.ofNat]

def itemsOf (field : String) (values : List Json) : List Item :=
  values.map fun value => .ofMembers [(field, value)]

theorem groups_eq_countDistinct_year :
    "year" ∉ listCategories ∧
      ∃ groups, groupBy "year" (Item.field? · "year")
          (itemsOf "year" [.number (.int 1), .string "1", .number (.real (.ofInt 1))]) =
          .ok groups ∧
        (Stat.countDistinct "year").evaluate
          (itemsOf "year" [.number (.int 1), .string "1", .number (.real (.ofInt 1))]) =
          .ok (.ofNat groups.length) := by
  have hfield : "year" ∉ listCategories := by decide
  have hvalues : (itemsOf "year" [.number (.int 1), .string "1", .number (.real (.ofInt 1))]).map
      (Item.field? · "year") =
        [.number (.int 1), .text "1", .number (.real (.ofInt 1))].map some := by
    decide +kernel
  have hagree : ∀ a ∈ [Scalar.number (.int 1), .text "1", .number (.real (.ofInt 1))],
      ∀ b ∈ [Scalar.number (.int 1), .text "1", .number (.real (.ofInt 1))],
        Scalar.Agree a b := by
    decide +kernel
  refine ⟨hfield, (groups_eq_countDistinct "year" hfield).1 _ _ hvalues ?_⟩
  intro a ha b hb hclash
  exact (Scalar.agree_iff_not_clash a b).mp (hagree a ha b hb) (.inl hclash)

/-- An integer beside the number that it is rounded to forms a group of its own, but is not counted
as another value. Zero and negative zero form one group and are counted as two values. -/
theorem clashing_values_miscounted :
    "gain" ∉ listCategories ∧
      ((groupBy "gain" (Item.field? · "gain") (itemsOf "gain"
          [.number (.int 9007199254740993), .number (.real (.ofInt 9007199254740992))])
        ).toOption.map List.length = some 2 ∧
        ((Stat.countDistinct "gain").evaluate (itemsOf "gain"
          [.number (.int 9007199254740993), .number (.real (.ofInt 9007199254740992))])
        ).toOption = some (.int 1)) ∧
      (groupBy "gain" (Item.field? · "gain") (itemsOf "gain"
          [.number (.real (.zero false)), .number (.real (.zero true))])
        ).toOption.map List.length = some 1 ∧
        ((Stat.countDistinct "gain").evaluate (itemsOf "gain"
          [.number (.real (.zero false)), .number (.real (.zero true))])
        ).toOption = some (.int 2) :=
  ⟨by decide, ⟨by decide +kernel, by decide +kernel⟩, by decide +kernel, by decide +kernel⟩

end Grouping

end Rollup
