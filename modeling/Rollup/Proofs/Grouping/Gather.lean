import Mathlib.Algebra.Ring.Nat
import Mathlib.Data.List.Perm.Basic
import Rollup.Grouping
import Rollup.Proofs.FirstMentions

namespace Rollup.Grouping

variable {α : Type}

def slotOf (entry : Scalar × α) : Slot := entry.1.slot

def membersOf (slot : Slot) (stream : List (Scalar × α)) : List α :=
  (stream.filter fun entry => slotOf entry = slot).map Prod.snd

def keyOf? (slot : Slot) (stream : List (Scalar × α)) : Option Scalar :=
  (stream.find? fun entry => slotOf entry = slot).map Prod.fst

/-- One group for each slot of a stream, in the order of first occurrence, with the first key of the
slot and with all of its elements, in order and with repeats. -/
structure FannedOut (stream : List (Scalar × α)) (groups : List (Group α)) : Prop where
  slots : groups.map (·.key.slot) = (stream.map slotOf).eraseDups
  key : ∀ group ∈ groups, keyOf? group.key.slot stream = some group.key
  members : ∀ group ∈ groups, group.members = membersOf group.key.slot stream

theorem join_new {groups : List (Group α)} {key : Scalar}
    (h : ∀ group ∈ groups, group.key.slot ≠ key.slot) (element : α) :
    join groups key element = groups ++ [⟨key, [element]⟩] := by
  induction groups with
  | nil => rfl
  | cons group rest ih =>
    rw [List.forall_mem_cons] at h
    rw [join, if_neg h.1, ih h.2, List.cons_append]

theorem join_old {before : List (Group α)} {key : Scalar}
    (h : ∀ group ∈ before, group.key.slot ≠ key.slot) {group : Group α}
    (hslot : group.key.slot = key.slot) (after : List (Group α)) (element : α) :
    join (before ++ group :: after) key element =
      before ++ { group with members := group.members ++ [element] } :: after := by
  induction before with
  | nil => rw [List.nil_append, join, if_pos hslot, List.nil_append]
  | cons first before ih =>
    rw [List.forall_mem_cons] at h
    rw [List.cons_append, join, if_neg h.1, ih h.2, List.cons_append]

theorem membersOf_concat (slot : Slot) (stream : List (Scalar × α)) (key : Scalar) (element : α) :
    membersOf slot (stream ++ [(key, element)]) =
      membersOf slot stream ++ if key.slot = slot then [element] else [] := by
  unfold membersOf
  rw [List.filter_append, List.map_append]
  by_cases h : key.slot = slot <;> simp [slotOf, h]

theorem keyOf?_concat {slot : Slot} {stream : List (Scalar × α)} {key : Scalar}
    (h : keyOf? slot stream = some key) (entry : Scalar × α) :
    keyOf? slot (stream ++ [entry]) = some key := by
  unfold keyOf? at h ⊢
  obtain ⟨found, hfound, rfl⟩ := Option.map_eq_some_iff.mp h
  rw [List.find?_append, hfound]
  rfl

theorem keyOf?_new {stream : List (Scalar × α)} {key : Scalar}
    (h : key.slot ∉ stream.map slotOf) (element : α) :
    keyOf? key.slot (stream ++ [(key, element)]) = some key := by
  have hnone : stream.find? (fun entry => slotOf entry = key.slot) = none := by
    rw [List.find?_eq_none]
    intro entry hentry hslot
    exact h (List.mem_map.mpr ⟨entry, hentry, of_decide_eq_true hslot⟩)
  rw [keyOf?, List.find?_append, hnone]
  simp [slotOf]

theorem membersOf_new {stream : List (Scalar × α)} {slot : Slot} (h : slot ∉ stream.map slotOf) :
    membersOf slot stream = [] := by
  rw [membersOf, List.map_eq_nil_iff, List.filter_eq_nil_iff]
  intro entry hentry hslot
  exact h (List.mem_map.mpr ⟨entry, hentry, of_decide_eq_true hslot⟩)

theorem FannedOut.keep {stream : List (Scalar × α)} {groups : List (Group α)}
    (h : FannedOut stream groups) {group : Group α} (hgroup : group ∈ groups) {key : Scalar}
    (hslot : group.key.slot ≠ key.slot) (element : α) :
    keyOf? group.key.slot (stream ++ [(key, element)]) = some group.key ∧
      group.members = membersOf group.key.slot (stream ++ [(key, element)]) := by
  refine ⟨keyOf?_concat (h.key group hgroup) _, ?_⟩
  rw [membersOf_concat, if_neg hslot.symm, List.append_nil, ← h.members group hgroup]

theorem FannedOut.join {stream : List (Scalar × α)} {groups : List (Group α)}
    (h : FannedOut stream groups) (key : Scalar) (element : α) :
    FannedOut (stream ++ [(key, element)]) (join groups key element) := by
  have hmem : key.slot ∈ groups.map (·.key.slot) ↔ key.slot ∈ stream.map slotOf := by
    rw [h.slots, List.mem_eraseDups]
  have hslots : ((stream ++ [(key, element)]).map slotOf).eraseDups =
      if key.slot ∈ stream.map slotOf then (stream.map slotOf).eraseDups
      else (stream.map slotOf).eraseDups ++ [key.slot] := by
    rw [List.map_append]
    exact FirstMentions.eraseDups_concat _ _
  by_cases hold : key.slot ∈ stream.map slotOf
  · -- The slot has a group. The others have other slots, since no slot has two.
    obtain ⟨group, hgroup, hslot⟩ := List.mem_map.mp (hmem.mpr hold)
    obtain ⟨before, after, rfl⟩ := List.append_of_mem hgroup
    have hnodup : ((before ++ group :: after).map (·.key.slot)).Nodup :=
      h.slots ▸ FirstMentions.eraseDups_nodup _
    rw [List.map_append, List.map_cons, List.nodup_middle, List.nodup_cons, ← List.map_append]
      at hnodup
    have hother : ∀ other ∈ before ++ after, other.key.slot ≠ key.slot := by
      intro other hother he
      exact hnodup.1 (List.mem_map.mpr ⟨other, hother, he.trans hslot.symm⟩)
    have hbefore : ∀ other ∈ before, other.key.slot ≠ key.slot := fun other ho =>
      hother other (List.mem_append_left _ ho)
    rw [join_old hbefore hslot]
    have hkept : ∀ other ∈ before ++ after,
        keyOf? other.key.slot (stream ++ [(key, element)]) = some other.key ∧
          other.members = membersOf other.key.slot (stream ++ [(key, element)]) := by
      intro other ho
      refine h.keep ?_ (hother other ho) element
      obtain hb | ha := List.mem_append.mp ho
      · exact List.mem_append_left _ hb
      · exact List.mem_append_right _ (List.mem_cons_of_mem _ ha)
    have hgrown : keyOf? group.key.slot (stream ++ [(key, element)]) = some group.key ∧
        group.members ++ [element] = membersOf group.key.slot (stream ++ [(key, element)]) := by
      refine ⟨keyOf?_concat (h.key group hgroup) _, ?_⟩
      rw [membersOf_concat, if_pos hslot.symm, ← h.members group hgroup]
    refine ⟨?_, ?_, ?_⟩
    · rw [hslots, if_pos hold, ← h.slots]
      simp
    · intro other ho
      rw [List.mem_append, List.mem_cons] at ho
      obtain hb | rfl | ha := ho
      · exact (hkept other (List.mem_append_left _ hb)).1
      · exact hgrown.1
      · exact (hkept other (List.mem_append_right _ ha)).1
    · intro other ho
      rw [List.mem_append, List.mem_cons] at ho
      obtain hb | rfl | ha := ho
      · exact (hkept other (List.mem_append_left _ hb)).2
      · exact hgrown.2
      · exact (hkept other (List.mem_append_right _ ha)).2
  · have hother : ∀ other ∈ groups, other.key.slot ≠ key.slot := by
      intro other ho he
      exact hold (hmem.mp (List.mem_map.mpr ⟨other, ho, he⟩))
    rw [join_new hother]
    refine ⟨?_, ?_, ?_⟩
    · rw [hslots, if_neg hold, List.map_append, h.slots]
      rfl
    · intro other ho
      obtain hg | hnew := List.mem_append.mp ho
      · exact (h.keep hg (hother other hg) element).1
      · rw [List.mem_singleton.mp hnew]
        exact keyOf?_new hold element
    · intro other ho
      obtain hg | hnew := List.mem_append.mp ho
      · exact (h.keep hg (hother other hg) element).2
      · rw [List.mem_singleton.mp hnew, membersOf_concat, membersOf_new hold, if_pos rfl]
        rfl

theorem gather_concat (stream : List (Scalar × α)) (key : Scalar) (element : α) :
    gather (stream ++ [(key, element)]) = join (gather stream) key element := by
  rw [gather, List.foldl_append]
  rfl

theorem gather_fannedOut (stream : List (Scalar × α)) : FannedOut stream (gather stream) := by
  induction stream using List.reverseRecOn with
  | nil => exact ⟨rfl, by simp [gather], by simp [gather]⟩
  | append_singleton stream entry ih =>
    rw [gather_concat]
    exact ih.join entry.1 entry.2

theorem FannedOut.members_ne_nil {stream : List (Scalar × α)} {groups : List (Group α)}
    (h : FannedOut stream groups) {group : Group α} (hgroup : group ∈ groups) :
    group.members ≠ [] := by
  have hslot : group.key.slot ∈ (stream.map slotOf).eraseDups := by
    rw [← h.slots]
    exact List.mem_map.mpr ⟨group, hgroup, rfl⟩
  obtain ⟨entry, hentry, heq⟩ := List.mem_map.mp (List.mem_eraseDups.mp hslot)
  rw [h.members group hgroup, membersOf]
  intro hnil
  rw [List.map_eq_nil_iff, List.filter_eq_nil_iff] at hnil
  exact hnil entry hentry (decide_eq_true heq)

def spread (groups : List (Group α)) : List (Slot × α) :=
  groups.flatMap fun group => group.members.map fun element => (group.key.slot, element)

theorem spread_join (groups : List (Group α)) (key : Scalar) (element : α) :
    (spread (join groups key element)).Perm (spread groups ++ [(key.slot, element)]) := by
  induction groups with
  | nil => exact .refl _
  | cons group rest ih =>
    rw [join]
    split
    · next hslot =>
      simp only [spread, List.flatMap_cons, List.map_append, List.map_cons, List.map_nil, hslot,
        List.append_assoc]
      exact List.perm_append_left_iff _ |>.mpr List.perm_append_comm
    · simp only [spread, List.flatMap_cons, List.append_assoc] at ih ⊢
      exact ih.append_left _

/-- Nothing is lost and nothing is invented. -/
theorem spread_gather (stream : List (Scalar × α)) :
    (spread (gather stream)).Perm (stream.map fun entry => (slotOf entry, entry.2)) := by
  induction stream using List.reverseRecOn with
  | nil => exact .refl _
  | append_singleton stream entry ih =>
    rw [gather_concat, List.map_append]
    exact (spread_join _ _ _).trans (ih.append_right _)

theorem length_spread (groups : List (Group α)) :
    (spread groups).length = (groups.map (·.members.length)).sum := by
  simp [spread, List.length_flatMap]

theorem map_snd_spread (groups : List (Group α)) :
    (spread groups).map Prod.snd = groups.flatMap (·.members) := by
  simp [spread, List.map_flatMap, Function.comp_def]

end Rollup.Grouping
