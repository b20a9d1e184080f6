import Rollup.Library
import Rollup.Proofs.Text.Words

namespace Rollup

theorem Library.matching_eq_filter (library : Library) (query : String) :
    library.matching query = library.items.filter (Query.parse query).selects := by
  rw [matching]
  split
  · next hempty =>
    rw [eq_comm, List.filter_eq_self]
    intro item _
    rw [Query.selects, List.isEmpty_iff.mp hempty]
    rfl
  · rfl

namespace Query

variable (words : List String)

theorem terms_join :
    (parse (" ".intercalate words)).terms = words.flatMap fun word => (parse word).terms := by
  have hblank : Text.isBlank ' ' = true := by decide
  have hjoin : (" ".intercalate words).toList = [' '].intercalate (words.map String.toList) :=
    String.toList_intercalate
  simp only [parse, hjoin, Text.words_intercalate hblank, List.flatMap_map, List.map_flatMap]

theorem selects_join (item : Item) :
    (parse (" ".intercalate words)).selects item =
      words.all fun word => (parse word).selects item := by
  rw [selects, terms_join, List.all_flatMap]
  rfl

theorem foldl_filter_selects (items : List Item) :
    words.foldl (fun items word => items.filter (parse word).selects) items =
      items.filter fun item => words.all fun word => (parse word).selects item := by
  induction words generalizing items with
  | nil => exact (List.filter_eq_self.mpr fun _ _ => rfl).symm
  | cons word words ih =>
    rw [List.foldl_cons, ih, List.filter_filter]
    apply List.filter_congr
    intro item _
    rw [List.all_cons, Bool.and_comm]

theorem matching_join (library : Library) :
    library.matching (" ".intercalate words) =
      words.foldl (fun items word => items.filter (parse word).selects) library.items := by
  rw [Library.matching_eq_filter, foldl_filter_selects]
  exact List.filter_congr fun item _ => selects_join words item

theorem selects_join_congr {words words' : List String}
    (h : ∀ word, word ∈ words ↔ word ∈ words') (item : Item) :
    (parse (" ".intercalate words)).selects item =
      (parse (" ".intercalate words')).selects item := by
  rw [selects_join, selects_join, Bool.eq_iff_iff, List.all_eq_true, List.all_eq_true]
  simp only [h]

/-- A joined query has the terms of its words, so it selects what every word selects, in whatever
order and however often they stand. A library answers it with the items that are left when each
word in turn has been asked for, in library order and as often as they stand in the library,
whether or not the query has terms. -/
theorem joined_words_conjoin :
    (parse (" ".intercalate words)).terms = words.flatMap (fun word => (parse word).terms) ∧
    (∀ item, (parse (" ".intercalate words)).selects item = true ↔
      ∀ word ∈ words, (parse word).selects item = true) ∧
    (∀ words' : List String, (∀ word, word ∈ words ↔ word ∈ words') →
      ∀ item, (parse (" ".intercalate words)).selects item =
        (parse (" ".intercalate words')).selects item) ∧
    ∀ library : Library,
      library.matching (" ".intercalate words) =
        words.foldl (fun items word => items.filter (parse word).selects) library.items ∧
      (library.matching (" ".intercalate words)).Sublist library.items ∧
      (∀ p : Item → Bool, (∀ item, p item → ∀ word ∈ words, (parse word).selects item) →
        (library.matching (" ".intercalate words)).countP p = library.items.countP p) ∧
      ∀ query, library.matching query = library.items.filter (parse query).selects := by
  refine ⟨terms_join words, fun item => ?_, fun words' => selects_join_congr, fun library => ?_⟩
  · rw [selects_join, List.all_eq_true]
  · refine ⟨matching_join words library, ?_, ?_, library.matching_eq_filter⟩
    · rw [Library.matching_eq_filter]
      exact List.filter_sublist
    · intro p hp
      rw [Library.matching_eq_filter, List.countP_filter]
      apply List.countP_congr
      intro item _
      rw [selects_join, Bool.and_eq_true, List.all_eq_true, and_iff_left_of_imp (hp item)]

end Query

end Rollup
