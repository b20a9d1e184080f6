import Mathlib.Algebra.BigOperators.Group.List.Basic
import Rollup.Proofs.Grouping.FanOut

namespace Rollup.Grouping

/-- The number of pieces of a category value: those between the semicolons of a text under a list
category, and one otherwise. -/
def pieces (category : String) : Scalar → Nat
  | .text s => if category ∈ listCategories then s.toList.count ';' + 1 else 1
  | .number _ => 1

variable {α : Type} {category : String} {value? : α → Option Scalar}

theorem Lists.length {value : Scalar} {listed : List Scalar} (h : Lists category value listed) :
    listed.length = pieces category value := by
  cases h with
  | itself h =>
    cases value with
    | number n => rfl
    | text s =>
      have hnot : category ∉ listCategories := fun hc => nomatch h hc
      rw [pieces, if_neg hnot, List.length_singleton]
  | @parts s parts cores h hparts hjoin hapart htrim =>
    rw [pieces, if_pos h, ← hjoin, Text.count_separators hparts hapart, List.length_map,
      htrim.length_eq]

def mentions (category : String) (value? : α → Option Scalar) (element : α) : Nat :=
  (value? element).elim 0 (pieces category)

theorem Streams.length {elements : List α} {entries : List (Scalar × α)}
    (h : Streams category value? elements entries) :
    entries.length = (elements.map (mentions category value?)).sum := by
  induction h with
  | nil => rfl
  | @cons element elements value listed rest hvalue hlists _ ih =>
    have hmentions : mentions category value? element = listed.length := by
      rw [mentions, hvalue, hlists.length]
      rfl
    rw [List.length_append, List.length_map, List.map_cons, List.sum_cons, hmentions, ih]

theorem sum_length_groupBy {elements : List α} {groups : List (Group α)}
    (h : groupBy category value? elements = .ok groups) :
    (groups.map (·.members.length)).sum = (elements.map (mentions category value?)).sum := by
  obtain ⟨entries, hentries, rfl⟩ := streams_of_groupBy h
  rw [← length_spread, (spread_gather entries).length_eq, List.length_map, hentries.length]

theorem sum_mentions {elements : List α} {groups : List (Group α)}
    (h : groupBy category value? elements = .ok groups) (hcategory : category ∉ listCategories) :
    (elements.map (mentions category value?)).sum = elements.length := by
  obtain ⟨entries, hentries, -⟩ := streams_of_groupBy h
  rw [← hentries.length, ← hentries.elements hcategory, List.length_map]

end Rollup.Grouping
