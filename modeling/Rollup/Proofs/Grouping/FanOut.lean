import Rollup.Proofs.Grouping.Gather
import Rollup.Proofs.Text.Blank
import Rollup.Proofs.Text.Cut
import Rollup.Proofs.Traversal

namespace Rollup.Grouping

variable {α : Type} {category : String} {value? : α → Option Scalar}

/-- The keys that a category value lists. A text under a list category gives its parts between
semicolons without the blanks around them, and any other value gives itself. -/
inductive Lists (category : String) : Scalar → List Scalar → Prop
  | itself {value : Scalar} (h : category ∈ listCategories → value.isText = false) :
      Lists category value [value]
  | parts {s : String} {parts cores : List (List Char)} (h : category ∈ listCategories)
      (hparts : parts ≠ []) (hjoin : [';'].intercalate parts = s.toList)
      (hapart : ∀ part ∈ parts, ';' ∉ part) (htrim : List.Forall₂ Text.Trimmed parts cores) :
      Lists category (.text s) (cores.map fun core => .text (String.ofList core))

theorem contains_listCategories :
    listCategories.contains category = true ↔ category ∈ listCategories := by
  rw [List.contains_iff_mem]

theorem lists_keys (category : String) (value : Scalar) :
    Lists category value (keys category value) := by
  cases value with
  | number n => exact .itself fun _ => rfl
  | text s =>
    by_cases h : category ∈ listCategories
    · have htrim : List.Forall₂ Text.Trimmed (s.toList.splitOn ';')
          ((s.toList.splitOn ';').map Text.trim) := by
        rw [List.forall₂_map_right_iff, List.forall₂_same]
        exact fun part _ => Text.trimmed_trim part
      have hlists := Lists.parts h (List.splitOn_ne_nil ';' s.toList)
        (List.intercalate_splitOn ';') (fun part hpart => Text.not_mem_of_mem_splitOn hpart) htrim
      rw [List.map_map] at hlists
      rw [keys, if_pos (contains_listCategories.mpr h)]
      exact hlists
    · rw [keys, if_neg (fun hc => h (contains_listCategories.mp hc))]
      exact .itself fun hc => absurd hc h

theorem Lists.eq_keys {value : Scalar} {listed : List Scalar} (h : Lists category value listed) :
    listed = keys category value := by
  cases h with
  | itself h =>
    cases value with
    | number n => rfl
    | text s => rw [keys, if_neg (fun hc => nomatch h (contains_listCategories.mp hc))]
  | @parts s parts cores h hparts hjoin hapart htrim =>
    have hcores : cores = parts.map Text.trim := by
      rw [← List.forall₂_eq_eq_eq, List.forall₂_map_right_iff]
      exact htrim.flip.imp fun _ _ ht => ht.eq_trim
    rw [keys, if_pos (contains_listCategories.mpr h), ← hjoin,
      List.splitOn_intercalate ';' hapart hparts, hcores, List.map_map]
    rfl

/-- Every element in order, once under each key that its category value lists. -/
inductive Streams (category : String) (value? : α → Option Scalar) :
    List α → List (Scalar × α) → Prop
  | nil : Streams category value? [] []
  | cons {element : α} {elements : List α} {value : Scalar} {listed : List Scalar}
      {rest : List (Scalar × α)} (hvalue : value? element = some value)
      (hlists : Lists category value listed) (hrest : Streams category value? elements rest) :
      Streams category value? (element :: elements) (listed.map (·, element) ++ rest)

theorem stream_cons {element : α} {value : Scalar} (h : value? element = some value)
    (elements : List α) :
    stream category value? (element :: elements) =
      (stream category value? elements).map ((keys category value).map (·, element) ++ ·) := by
  have hentries : entries category value? element =
      .ok ((keys category value).map (·, element)) := by
    rw [entries, h]
  rw [stream, stream, Traversal.mapM_cons_ok hentries]
  cases elements.mapM (entries category value?) <;> rfl

theorem streams_iff {elements : List α} {entries : List (Scalar × α)} :
    Streams category value? elements entries ↔ stream category value? elements = .ok entries := by
  constructor
  · intro h
    induction h with
    | nil => rfl
    | cons hvalue hlists _ ih =>
      rw [stream_cons hvalue, ih, hlists.eq_keys]
      rfl
  · induction elements generalizing entries with
    | nil =>
      rintro ⟨rfl⟩
      exact .nil
    | cons element elements ih =>
      intro h
      cases hvalue : value? element with
      | none =>
        have hmissing : Grouping.entries category value? element =
            .error (.unknownField category) := by
          rw [Grouping.entries, hvalue]
        rw [stream, Traversal.mapM_cons_error hmissing] at h
        cases h
      | some value =>
        rw [stream_cons hvalue, Traversal.map_eq_ok] at h
        obtain ⟨rest, hrest, rfl⟩ := h
        exact .cons hvalue (lists_keys category value) (ih hrest)

theorem exists_streams {elements : List α} (h : ∀ element ∈ elements, (value? element).isSome) :
    ∃ entries, Streams category value? elements entries := by
  induction elements with
  | nil => exact ⟨[], .nil⟩
  | cons element elements ih =>
    rw [List.forall_mem_cons] at h
    obtain ⟨value, hvalue⟩ := Option.isSome_iff_exists.mp h.1
    obtain ⟨rest, hrest⟩ := ih h.2
    exact ⟨_, .cons hvalue (lists_keys category value) hrest⟩

theorem stream_missing {elements : List α} {element : α} (hmem : element ∈ elements)
    (h : value? element = none) :
    stream category value? elements = .error (.unknownField category) := by
  induction elements with
  | nil => cases hmem
  | cons first elements ih =>
    cases hvalue : value? first with
    | none =>
      have hmissing : entries category value? first = .error (.unknownField category) := by
        rw [entries, hvalue]
      rw [stream, Traversal.mapM_cons_error hmissing]
      rfl
    | some value =>
      have hne : element ≠ first := by
        rintro rfl
        rw [h] at hvalue
        cases hvalue
      rw [stream_cons hvalue, ih ((List.mem_cons.mp hmem).resolve_left hne)]
      rfl

theorem Streams.elements {elements : List α} {entries : List (Scalar × α)}
    (h : Streams category value? elements entries) (hcategory : category ∉ listCategories) :
    entries.map Prod.snd = elements := by
  induction h with
  | nil => rfl
  | cons hvalue hlists _ ih =>
    cases hlists with
    | itself _ => rw [List.map_append, ih]; rfl
    | parts hc _ _ _ _ => exact absurd hc hcategory

theorem Lists.ne_nil {value : Scalar} {listed : List Scalar} (h : Lists category value listed) :
    listed ≠ [] := by
  cases h with
  | itself _ => exact List.cons_ne_nil _ _
  | parts _ hparts _ _ htrim =>
    intro hnil
    rw [List.map_eq_nil_iff] at hnil
    rw [hnil, List.forall₂_nil_right_iff] at htrim
    exact hparts htrim

theorem Streams.mem_elements {elements : List α} {entries : List (Scalar × α)}
    (h : Streams category value? elements entries) (element : α) :
    element ∈ entries.map Prod.snd ↔ element ∈ elements := by
  induction h with
  | nil => rfl
  | @cons first elements value listed rest _ hlists _ ih =>
    have hfirst : (listed.map (·, first)).map Prod.snd = List.replicate listed.length first := by
      rw [List.map_map]
      exact List.map_const' ..
    have hlength : listed.length ≠ 0 := mt List.length_eq_zero_iff.mp hlists.ne_nil
    rw [List.map_append, List.mem_append, ih, List.mem_cons, hfirst, List.mem_replicate,
      and_iff_right hlength]

theorem groupBy_streams {elements : List α} {entries : List (Scalar × α)}
    (h : Streams category value? elements entries) :
    groupBy category value? elements = .ok (gather entries) := by
  rw [groupBy, streams_iff.mp h]
  rfl

theorem groupBy_missing {elements : List α} {element : α} (hmem : element ∈ elements)
    (h : value? element = none) :
    groupBy category value? elements = .error (.unknownField category) := by
  rw [groupBy, stream_missing hmem h]
  rfl

theorem streams_of_groupBy {elements : List α} {groups : List (Group α)}
    (h : groupBy category value? elements = .ok groups) :
    ∃ entries, Streams category value? elements entries ∧ groups = gather entries := by
  obtain ⟨entries, hstream, rfl⟩ := Traversal.map_eq_ok.mp h
  exact ⟨entries, streams_iff.mpr hstream, rfl⟩

theorem mem_groupBy {elements : List α} {groups : List (Group α)}
    (h : groupBy category value? elements = .ok groups) :
    (∀ group ∈ groups, group.members ≠ []) ∧
      ∀ element, (∃ group ∈ groups, element ∈ group.members) ↔ element ∈ elements := by
  obtain ⟨entries, hentries, rfl⟩ := streams_of_groupBy h
  refine ⟨fun group hgroup => (gather_fannedOut entries).members_ne_nil hgroup, ?_⟩
  intro element
  have hmembers := ((spread_gather entries).map Prod.snd).mem_iff (a := element)
  rw [map_snd_spread, List.map_map, List.mem_flatMap] at hmembers
  exact hmembers.trans (hentries.mem_elements element)

/-- Grouping succeeds exactly when every element has a category value. Then the groups are those of
the stream: none is empty, together they hold the stream and nothing else, and outside the list
categories they partition the elements. -/
theorem groupBy_fans_out (category : String) (value? : α → Option Scalar) (elements : List α) :
    ((∀ element ∈ elements, (value? element).isSome) →
      ∃ stream groups, (∀ entries, Streams category value? elements entries ↔ entries = stream) ∧
        groupBy category value? elements = .ok groups ∧
        FannedOut stream groups ∧
        (∀ group ∈ groups, group.members ≠ []) ∧
        (spread groups).Perm (stream.map fun entry => (slotOf entry, entry.2)) ∧
        (groups.map (·.members.length)).sum = stream.length ∧
        (category ∉ listCategories → (groups.flatMap (·.members)).Perm elements)) ∧
    ((∃ element ∈ elements, value? element = none) →
      groupBy category value? elements = .error (.unknownField category)) := by
  constructor
  · intro h
    obtain ⟨entries, hentries⟩ := @exists_streams α category value? elements h
    have hstream := streams_iff.mp hentries
    have hfan := gather_fannedOut entries
    have hspread := spread_gather entries
    refine ⟨entries, gather entries, ?_, ?_, hfan, fun _ hg => hfan.members_ne_nil hg, hspread,
      ?_, ?_⟩
    · intro other
      rw [streams_iff, hstream, Except.ok.injEq, eq_comm]
    · exact groupBy_streams hentries
    · rw [← length_spread, hspread.length_eq, List.length_map]
    · intro hcategory
      have hmembers := hspread.map Prod.snd
      rw [map_snd_spread, List.map_map] at hmembers
      exact hmembers.trans (.of_eq (hentries.elements hcategory))
  · rintro ⟨element, hmem, hnone⟩
    exact groupBy_missing hmem hnone

end Rollup.Grouping
