import Mathlib.Data.List.Forall2
import Rollup.Keyed

namespace Rollup.Keyed

variable {α β γ δ : Type} {R : α → β → Prop} {S : γ → δ → Prop}

inductive Entry (R : α → β → Prop) : String × α → String × β → Prop
  | named (name : String) {value : α} {value' : β} (h : R value value') :
      Entry R (name, value) (name, value')

def Rel (R : α → β → Prop) (m : Keyed α) (m' : Keyed β) : Prop :=
  List.Forall₂ (Entry R) m.entries m'.entries

theorem lookup_rel {entries : List (String × α)} {entries' : List (String × β)}
    (h : List.Forall₂ (Entry R) entries entries') (name : String) :
    Option.Rel R (entries.lookup name) (entries'.lookup name) := by
  induction h with
  | nil => exact .none
  | cons hentry _ ih =>
    obtain ⟨other, hvalue⟩ := hentry
    rw [List.lookup_cons, List.lookup_cons]
    split
    · exact .some hvalue
    · exact ih

theorem Rel.get? {m : Keyed α} {m' : Keyed β} (h : Rel R m m') (name : String) :
    Option.Rel R (m.get? name) (m'.get? name) :=
  lookup_rel h name

theorem Rel.any {m : Keyed α} {m' : Keyed β} (h : Rel R m m') {p : String × α → Bool}
    {q : String × β → Bool} (hpq : ∀ entry entry', Entry R entry entry' → p entry = q entry') :
    m.entries.any p = m'.entries.any q := by
  have hmap : m.entries.map p = m'.entries.map q := by
    rw [← List.forall₂_eq_eq_eq, List.forall₂_map_left_iff, List.forall₂_map_right_iff]
    exact h.imp hpq
  have hany := congrArg (List.any · id) hmap
  rwa [List.any_map, List.any_map] at hany

theorem insertInto_rel {entries : List (String × α)} {entries' : List (String × β)}
    (h : List.Forall₂ (Entry R) entries entries') (name : String) {value : α} {value' : β}
    (hvalue : R value value') :
    List.Forall₂ (Entry R) (insertInto name value entries) (insertInto name value' entries') := by
  induction h with
  | nil => exact .cons (.named name hvalue) .nil
  | cons hentry hrest ih =>
    obtain ⟨other, hheld⟩ := hentry
    rw [insertInto, insertInto]
    -- Where the value goes is up to the names, which both maps have in common.
    split
    · exact .cons (.named name hvalue) (.cons (.named other hheld) hrest)
    · split
      · exact .cons (.named other hheld) ih
      · exact .cons (.named name hvalue) hrest

theorem ofList_rel {entries : List (String × α)} {entries' : List (String × β)}
    (h : List.Forall₂ (Entry R) entries entries') : Rel R (ofList entries) (ofList entries') := by
  have hinsert (m : Keyed α) (m' : Keyed β) (hm : Rel R m m') (entry : String × α)
      (entry' : String × β) (hentry : Entry R entry entry') :
      Rel R (m.insert entry.1 entry.2) (m'.insert entry'.1 entry'.2) := by
    obtain ⟨name, hvalue⟩ := hentry
    exact insertInto_rel hm name hvalue
  have hempty : Rel R empty empty := List.Forall₂.nil
  exact List.rel_foldl hinsert hempty h

theorem Rel.filterMap {m : Keyed α} {m' : Keyed β} (h : Rel R m m') {f : α → Option γ}
    {g : β → Option δ} (hfg : ∀ value value', R value value' → Option.Rel S (f value) (g value')) :
    Rel S (m.filterMap f) (m'.filterMap g) := by
  refine List.rel_filterMap ?_ h
  rintro _ _ ⟨name, hvalue⟩
  have hmapped := hfg _ _ hvalue
  dsimp only
  generalize f _ = mapped, g _ = mapped' at hmapped
  cases hmapped with
  | none => exact .none
  | some hmapped => exact .some (.named name hmapped)

end Rollup.Keyed
