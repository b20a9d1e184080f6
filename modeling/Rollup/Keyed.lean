namespace Rollup

structure Keyed (α : Type) where
  entries : List (String × α)
  ascending : (entries.map Prod.fst).Pairwise (· < ·)

namespace Keyed

variable {α β : Type}

def empty : Keyed α := ⟨[], .nil⟩

def get? (m : Keyed α) (name : String) : Option α := m.entries.lookup name

def insertInto (name : String) (value : α) : List (String × α) → List (String × α)
  | [] => [(name, value)]
  | (other, held) :: rest =>
    if name < other then (name, value) :: (other, held) :: rest
    else if other < name then (other, held) :: insertInto name value rest
    else (name, value) :: rest

theorem mem_names_insertInto {name : String} {value : α} {entries : List (String × α)} {other : String}
    (h : other ∈ (insertInto name value entries).map Prod.fst) :
    other = name ∨ other ∈ entries.map Prod.fst := by
  induction entries with
  | nil => simpa [insertInto] using h
  | cons entry rest ih =>
    obtain ⟨key, held⟩ := entry
    simp only [insertInto] at h
    split at h
    · simpa using h
    · split at h
      · simp only [List.map_cons, List.mem_cons] at h ⊢
        rcases h with h | h
        · exact .inr (.inl h)
        · exact (ih h).imp_right .inr
      · simp only [List.map_cons, List.mem_cons] at h ⊢
        exact h.imp_right .inr

theorem insertInto_ascending (name : String) (value : α) {entries : List (String × α)}
    (h : (entries.map Prod.fst).Pairwise (· < ·)) :
    ((insertInto name value entries).map Prod.fst).Pairwise (· < ·) := by
  induction entries with
  | nil => simp [insertInto]
  | cons entry rest ih =>
    obtain ⟨key, held⟩ := entry
    simp only [List.map_cons, List.pairwise_cons] at h
    simp only [insertInto]
    split
    next before =>
      simp only [List.map_cons, List.pairwise_cons, List.mem_cons]
      refine ⟨?_, h.1, h.2⟩
      rintro other (rfl | hother)
      · exact before
      · exact String.lt_trans before (h.1 other hother)
    next notBefore =>
      split
      next after =>
        simp only [List.map_cons, List.pairwise_cons]
        refine ⟨?_, ih h.2⟩
        intro other hother
        rcases mem_names_insertInto hother with rfl | hother
        · exact after
        · exact h.1 other hother
      next notAfter =>
        have same : name = key :=
          String.le_antisymm (String.not_lt.mp notAfter) (String.not_lt.mp notBefore)
        subst same
        simpa using h

def insert (m : Keyed α) (name : String) (value : α) : Keyed α :=
  ⟨insertInto name value m.entries, insertInto_ascending name value m.ascending⟩

/-- The map of a list of entries, in which the last one of a name counts. -/
def ofList (entries : List (String × α)) : Keyed α :=
  entries.foldl (fun m (name, value) => m.insert name value) empty

theorem names_filterMap_sublist (f : α → Option β) (entries : List (String × α)) :
    ((entries.filterMap fun (name, value) => (f value).map (name, ·)).map Prod.fst).Sublist
      (entries.map Prod.fst) := by
  induction entries with
  | nil => simp
  | cons entry rest ih =>
    obtain ⟨name, value⟩ := entry
    cases h : f value with
    | none => simpa [h] using ih.trans (List.sublist_cons_self ..)
    | some mapped => simpa [h] using ih

def filterMap (f : α → Option β) (m : Keyed α) : Keyed β :=
  ⟨m.entries.filterMap fun (name, value) => (f value).map (name, ·),
    m.ascending.sublist (names_filterMap_sublist f m.entries)⟩

end Keyed

end Rollup
