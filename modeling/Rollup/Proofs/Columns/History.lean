import Mathlib.Data.Finset.Card
import Rollup.Proofs.Stat.Completion

namespace Rollup.Columns

/-- What columns show of a history of puts. -/
structure Records (history : List (String × Stat)) (columns : Columns) : Prop where
  names : columns.names = (history.map Prod.fst).eraseDups
  distinct : columns.names.Nodup
  size : columns.entries.length = (history.map Prod.fst).toFinset.card
  get? (name : String) : columns.get? name = history.reverse.lookup name
  entries : columns.entries.map (fun entry => (entry.1, some entry.2)) =
    columns.names.map fun name => (name, columns.get? name)
  sortKey? : columns.sortKey? = (history.map Prod.fst).head?

variable {history later : List (String × Stat)} {columns other : Columns}

section Lookup

variable {entries : List (String × Stat)}

theorem lookup_cons (key name : String) (stat : Stat) (entries : List (String × Stat)) :
    ((key, stat) :: entries).lookup name =
      if name = key then some stat else entries.lookup name := by
  rw [List.lookup_cons]
  by_cases h : name = key
  · rw [if_pos h, beq_iff_eq.mpr h]
  · rw [if_neg h, beq_eq_false_iff_ne.mpr h]

theorem lookup_putInto (name key : String) (stat : Stat) (entries : List (String × Stat)) :
    (putInto key stat entries).lookup name =
      if name = key then some stat else entries.lookup name := by
  induction entries with
  | nil => exact lookup_cons key name stat []
  | cons entry entries ih =>
    obtain ⟨first, held⟩ := entry
    rw [putInto]
    by_cases hfirst : first = key
    · rw [if_pos hfirst, lookup_cons, lookup_cons, hfirst]
      split <;> rfl
    · rw [if_neg hfirst, lookup_cons, lookup_cons, ih]
      by_cases hname : name = first
      · rw [if_pos hname, if_pos hname, if_neg (hname ▸ hfirst)]
      · rw [if_neg hname, if_neg hname]

theorem names_putInto (name : String) (stat : Stat) (entries : List (String × Stat)) :
    (putInto name stat entries).map Prod.fst =
      if name ∈ entries.map Prod.fst then entries.map Prod.fst
      else entries.map Prod.fst ++ [name] := by
  induction entries with
  | nil => rfl
  | cons entry entries ih =>
    obtain ⟨first, held⟩ := entry
    rw [putInto, List.map_cons]
    by_cases hfirst : first = name
    · rw [if_pos hfirst, if_pos (by simp [hfirst])]
      rfl
    · rw [if_neg hfirst, List.map_cons, ih]
      by_cases hname : name ∈ entries.map Prod.fst
      · rw [if_pos hname, if_pos (List.mem_cons_of_mem first hname)]
      · rw [if_neg hname, if_neg (List.not_mem_cons_of_ne_of_not_mem (Ne.symm hfirst) hname)]
        rfl

theorem lookup_of_mem {name : String} {stat : Stat} (hdistinct : (entries.map Prod.fst).Nodup)
    (h : (name, stat) ∈ entries) : entries.lookup name = some stat := by
  induction entries with
  | nil => cases h
  | cons entry entries ih =>
    obtain ⟨first, held⟩ := entry
    rw [List.map_cons, List.nodup_cons] at hdistinct
    rw [lookup_cons]
    obtain heq | hrest := List.mem_cons.mp h
    · cases heq
      rw [if_pos rfl]
    · have hne : name ≠ first := by
        rintro rfl
        exact hdistinct.1 (List.mem_map.mpr ⟨_, hrest, rfl⟩)
      rw [if_neg hne, ih hdistinct.2 hrest]

theorem lookup_map (f : Stat → Stat) (name : String) (entries : List (String × Stat)) :
    (entries.map fun entry => (entry.1, f entry.2)).lookup name = (entries.lookup name).map f := by
  induction entries with
  | nil => rfl
  | cons entry entries ih =>
    obtain ⟨first, held⟩ := entry
    rw [List.map_cons, lookup_cons, lookup_cons, ih]
    split <;> rfl

end Lookup

theorem names_put (columns : Columns) (name : String) (stat : Stat) :
    (columns.put name stat).names =
      if name ∈ columns.names then columns.names else columns.names ++ [name] :=
  names_putInto name stat columns.entries

theorem get?_put (columns : Columns) (key name : String) (stat : Stat) :
    (columns.put key stat).get? name = if name = key then some stat else columns.get? name :=
  lookup_putInto name key stat columns.entries

theorem entries_eq (columns : Columns) :
    columns.entries.map (fun entry => (entry.1, some entry.2)) =
      columns.names.map fun name => (name, columns.get? name) := by
  rw [Columns.names, List.map_map, List.map_inj_left]
  intro entry hentry
  rw [Function.comp_apply, Columns.get?, lookup_of_mem columns.distinct hentry]

theorem eq_of_get? (hnames : columns.names = other.names)
    (hget : ∀ name ∈ columns.names, columns.get? name = other.get? name) : columns = other := by
  have hentries : columns.entries.map (fun entry => (entry.1, some entry.2)) =
      other.entries.map fun entry => (entry.1, some entry.2) := by
    rw [entries_eq, entries_eq, ← hnames]
    apply List.map_congr_left
    intro name hname
    rw [hget name hname]
  have hinjective : Function.Injective fun entry : String × Stat => (entry.1, some entry.2) := by
    rintro ⟨name, stat⟩ ⟨name', stat'⟩ heq
    cases heq
    rfl
  cases columns
  cases other
  cases List.map_injective_iff.mpr hinjective hentries
  rfl

theorem Records.of_names (hnames : columns.names = (history.map Prod.fst).eraseDups)
    (hget : ∀ name, columns.get? name = history.reverse.lookup name) : Records history columns where
  names := hnames
  distinct := columns.distinct
  size := by
    have hlength : columns.entries.length = columns.names.length := (List.length_map _).symm
    have hset : columns.names.toFinset = (history.map Prod.fst).toFinset := by
      ext name
      rw [List.mem_toFinset, List.mem_toFinset, hnames, List.mem_eraseDups]
    have hcard : columns.names.toFinset.card = columns.names.length :=
      List.toFinset_card_of_nodup columns.distinct
    rw [hlength, ← hcard, hset]
  get? := hget
  entries := entries_eq columns
  sortKey? := by
    rw [Columns.sortKey?, hnames]
    cases history.map Prod.fst with
    | nil => rfl
    | cons name names => rw [List.eraseDups_cons, List.head?_cons, List.head?_cons]

theorem records_empty : Records [] empty := .of_names rfl fun _ => rfl

theorem Records.put (h : Records history columns) (name : String) (stat : Stat) :
    Records (history ++ [(name, stat)]) (columns.put name stat) := by
  apply Records.of_names
  · rw [names_put, h.names, List.map_append, List.map_singleton, FirstMentions.eraseDups_concat]
    exact if_congr List.mem_eraseDups rfl rfl
  · intro other
    rw [List.reverse_append, List.reverse_singleton, List.singleton_append, lookup_cons,
      ← h.get? other, get?_put]

def putAll (columns : Columns) (later : List (String × Stat)) : Columns :=
  later.foldl (fun columns (name, stat) => columns.put name stat) columns

theorem Records.putAll (h : Records history columns) (later : List (String × Stat)) :
    Records (history ++ later) (columns.putAll later) := by
  induction later generalizing history columns with
  | nil =>
    rw [List.append_nil]
    exact h
  | cons entry later ih =>
    obtain ⟨name, stat⟩ := entry
    have hput := ih (h.put name stat)
    rw [List.append_assoc, List.singleton_append] at hput
    exact hput

theorem records_ofList (history : List (String × Stat)) : Records history (ofList history) :=
  records_empty.putAll history

theorem Records.unique (h : Records history columns) (h' : Records history other) :
    columns = other := by
  apply eq_of_get? (h.names.trans h'.names.symm)
  intro name _
  rw [h.get?, h'.get?]

theorem ofList_eq_iff : ofList history = columns ↔ Records history columns :=
  ⟨fun h => h ▸ records_ofList history, fun h => (records_ofList history).unique h⟩

theorem ofList_self (columns : Columns) : ofList columns.entries = columns := by
  have hentries := ofList_entries columns.distinct
  cases columns
  cases hofList : ofList _
  rw [hofList] at hentries
  cases hentries
  rfl

theorem Records.append (h : Records history columns) (h' : Records later other) :
    Records (history ++ later) (ofList (columns.entries ++ other.entries)) := by
  have hself : Records other.entries other := ofList_eq_iff.mp (ofList_self other)
  have hmerged : ofList (columns.entries ++ other.entries) = columns.putAll other.entries := by
    rw [ofList, List.foldl_append]
    change (ofList columns.entries).putAll other.entries = _
    rw [ofList_self]
  have hkept := h.putAll other.entries
  rw [hmerged]
  apply Records.of_names
  · have hnames : other.entries.map Prod.fst = (later.map Prod.fst).eraseDups := h'.names
    rw [hkept.names, List.map_append, List.map_append, hnames,
      FirstMentions.eraseDups_append_eraseDups]
  · intro name
    rw [hkept.get?, List.reverse_append, List.reverse_append, List.lookup_append,
      List.lookup_append, ← hself.get?, h'.get?]

theorem Records.settle (h : Records history columns) {completed : Columns} {sample : Item}
    (hcompleted : completed.entries =
      columns.entries.map fun entry => (entry.1, entry.2.settle sample)) :
    Records (history.map fun entry => (entry.1, entry.2.settle sample)) completed := by
  apply Records.of_names
  · rw [Columns.names, hcompleted, List.map_map, List.map_map]
    exact h.names
  · intro name
    rw [Columns.get?, hcompleted, lookup_map, ← List.map_reverse, lookup_map, ← h.get?]
    rfl

/-- Columns record the puts that they were made by, and are the only ones to do so. What is put
later and what other columns have recorded comes behind it. The columns that a text is read as
record its pieces, and completed columns the same history with completed statistics. -/
theorem records_history :
    (∀ history columns, ofList history = columns ↔ Records history columns) ∧
    (∀ history columns later, Records history columns →
      Records (history ++ later) (columns.putAll later)) ∧
    (∀ history columns later other, Records history columns → Records later other →
      Records (history ++ later) (ofList (columns.entries ++ other.entries))) ∧
    (∀ columns, ofList columns.entries = columns) ∧
    (∀ text columns, parse text = .ok columns → ∃ stats,
      (Text.pieces ' ' text).mapM Stat.parse = .ok stats ∧
        Records ((Text.pieces ' ' text).zip stats) columns) ∧
    ∀ history columns items completed, Records history columns →
      columns.complete items = .ok completed → ∃ sample, items.head? = some sample ∧
        Records (history.map fun entry => (entry.1, entry.2.settle sample)) completed := by
  refine ⟨fun _ _ => ofList_eq_iff, fun _ _ later h => h.putAll later,
    fun _ _ _ _ h h' => h.append h', ofList_self, ?_, ?_⟩
  · intro text columns h
    rw [parse_eq, Traversal.map_eq_ok] at h
    obtain ⟨stats, hstats, rfl⟩ := h
    exact ⟨stats, hstats, records_ofList _⟩
  · intro history columns items completed h hcompleted
    obtain ⟨sample, hsample, hentries⟩ := complete_entries hcompleted
    exact ⟨sample, hsample, h.settle hentries⟩

end Rollup.Columns
