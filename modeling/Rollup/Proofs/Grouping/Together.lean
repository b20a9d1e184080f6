import Rollup.Proofs.Grouping.FanOut
import Rollup.Proofs.Scalar.Exact

namespace Rollup.Grouping

variable {α : Type} {category : String} {value? : α → Option Scalar}

theorem Streams.mem_iff {elements : List α} {entries : List (Scalar × α)}
    (h : Streams category value? elements entries) (hcategory : category ∉ listCategories)
    (key : Scalar) (element : α) :
    (key, element) ∈ entries ↔ element ∈ elements ∧ value? element = some key := by
  induction h with
  | nil => simp
  | @cons first elements value listed rest hvalue hlists _ ih =>
    cases hlists with
    | parts hlisted => exact absurd hlisted hcategory
    | itself =>
      rw [List.map_singleton, List.singleton_append, List.mem_cons, List.mem_cons, ih,
        Prod.mk.injEq, or_and_right]
      refine or_congr_left ⟨?_, ?_⟩
      · rintro ⟨rfl, rfl⟩
        exact ⟨rfl, hvalue⟩
      · rintro ⟨rfl, hkey⟩
        exact ⟨Option.some.inj (hkey.symm.trans hvalue), rfl⟩

theorem FannedOut.mem_members {stream : List (Scalar × α)} {groups : List (Group α)}
    (h : FannedOut stream groups) {group : Group α} (hgroup : group ∈ groups) (element : α) :
    element ∈ group.members ↔
      ∃ key, (key, element) ∈ stream ∧ key.slot = group.key.slot := by
  rw [h.members group hgroup, membersOf, List.mem_map]
  constructor
  · rintro ⟨⟨key, _⟩, hentry, rfl⟩
    obtain ⟨hmem, hslot⟩ := List.mem_filter.mp hentry
    exact ⟨key, hmem, of_decide_eq_true hslot⟩
  · rintro ⟨key, hmem, hslot⟩
    exact ⟨(key, element), List.mem_filter.mpr ⟨hmem, decide_eq_true hslot⟩, rfl⟩

theorem FannedOut.exists_group {stream : List (Scalar × α)} {groups : List (Group α)}
    (h : FannedOut stream groups) {key : Scalar} {element : α} (hmem : (key, element) ∈ stream) :
    ∃ group ∈ groups, group.key.slot = key.slot := by
  have hslot : key.slot ∈ groups.map (·.key.slot) := by
    rw [h.slots, List.mem_eraseDups]
    exact List.mem_map.mpr ⟨_, hmem, rfl⟩
  exact List.mem_map.mp hslot

theorem FannedOut.together_iff {stream : List (Scalar × α)} {groups : List (Group α)}
    (h : FannedOut stream groups) {x y : α} {a b : Scalar}
    (hx : ∀ key, (key, x) ∈ stream ↔ key = a) (hy : ∀ key, (key, y) ∈ stream ↔ key = b) :
    (∃ group ∈ groups, x ∈ group.members ∧ y ∈ group.members) ↔ a.slot = b.slot := by
  constructor
  · rintro ⟨group, hgroup, hxmember, hymember⟩
    obtain ⟨key, hkey, hxslot⟩ := (h.mem_members hgroup x).mp hxmember
    obtain ⟨key', hkey', hyslot⟩ := (h.mem_members hgroup y).mp hymember
    rw [← (hx key).mp hkey, ← (hy key').mp hkey', hxslot, hyslot]
  · intro hslot
    obtain ⟨group, hgroup, hgroupSlot⟩ := h.exists_group ((hx a).mpr rfl)
    refine ⟨group, hgroup, ?_, ?_⟩
    · exact (h.mem_members hgroup x).mpr ⟨a, (hx a).mpr rfl, hgroupSlot.symm⟩
    · exact (h.mem_members hgroup y).mpr ⟨b, (hy b).mpr rfl, (hgroupSlot.trans hslot).symm⟩

/-- Outside the list categories two elements share a group exactly when their values are equal texts
or numbers of exactly the same value, but for the least integer and the floating-point number equal
to it. -/
theorem together_iff_exact (hcategory : category ∉ listCategories) {elements : List α}
    (hvalues : ∀ element ∈ elements, (value? element).isSome) {x y : α} (hx : x ∈ elements)
    (hy : y ∈ elements) {a b : Scalar} (ha : value? x = some a) (hb : value? y = some b) :
    ∃ groups, groupBy category value? elements = .ok groups ∧
      ((∃ group ∈ groups, x ∈ group.members ∧ y ∈ group.members) ↔
        a.exact = b.exact ∧ ¬ (Scalar.Parted a b ∨ Scalar.Parted b a)) := by
  obtain ⟨entries, hentries⟩ := exists_streams hvalues
  have hkey {z : α} {value : Scalar} (hz : z ∈ elements) (hvalue : value? z = some value)
      (key : Scalar) : (key, z) ∈ entries ↔ key = value := by
    rw [hentries.mem_iff hcategory, and_iff_right hz, hvalue, Option.some.injEq, eq_comm]
  refine ⟨gather entries, groupBy_streams hentries, ?_⟩
  rw [(gather_fannedOut entries).together_iff (hkey hx ha) (hkey hy hb), Scalar.slot_eq_iff]

/-- 2^53 stands with the number equal to it, to which 2^53 + 1 would be rounded. -/
theorem together_beyond_rounding :
    "gain" ∉ listCategories ∧
      ∃ groups, groupBy "gain" some
          [.number (.real (.ofInt 9007199254740992)), .number (.int 9007199254740992),
            .number (.int 9007199254740993)] = .ok groups ∧
        ∃ group ∈ groups, .number (.real (.ofInt 9007199254740992)) ∈ group.members ∧
          .number (.int 9007199254740992) ∈ group.members := by
  have hcategory : "gain" ∉ listCategories := by decide
  have hvalues : ∀ value ∈ [Scalar.number (.real (.ofInt 9007199254740992)),
      .number (.int 9007199254740992), .number (.int 9007199254740993)],
      (some value).isSome := fun _ _ => rfl
  obtain ⟨groups, hgroups, htogether⟩ := together_iff_exact hcategory hvalues
    List.mem_cons_self (List.mem_cons_of_mem _ List.mem_cons_self) rfl rfl
  exact ⟨hcategory, groups, hgroups, htogether.mpr (by decide +kernel)⟩

/-- The least integer and the floating-point number equal to it stand apart. -/
theorem least_integer_apart :
    "gain" ∉ listCategories ∧
      (Scalar.number (.int Int64.minValue)).exact =
        (Scalar.number (.real (.ofInt Int64.minValue.toInt))).exact ∧
      (groupBy "gain" some
          [.number (.int Int64.minValue), .number (.real (.ofInt Int64.minValue.toInt))]
        ).toOption.map (List.map Group.members) =
        some [[.number (.int Int64.minValue)],
          [.number (.real (.ofInt Int64.minValue.toInt))]] :=
  ⟨by decide, by decide +kernel, by decide +kernel⟩

end Rollup.Grouping
