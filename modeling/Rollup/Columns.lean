import Rollup.Stat.Parser

namespace Rollup

structure Columns where
  entries : List (String × Stat)
  distinct : (entries.map Prod.fst).Nodup
deriving DecidableEq

namespace Columns

def empty : Columns := ⟨[], .nil⟩

def names (columns : Columns) : List String := columns.entries.map Prod.fst

def get? (columns : Columns) (name : String) : Option Stat := columns.entries.lookup name

def sortKey? (columns : Columns) : Option String := columns.names.head?

def putInto (name : String) (stat : Stat) : List (String × Stat) → List (String × Stat)
  | [] => [(name, stat)]
  | (other, held) :: rest =>
    if other = name then (other, stat) :: rest else (other, held) :: putInto name stat rest

theorem mem_names_putInto {name : String} {stat : Stat} {entries : List (String × Stat)}
    {other : String} (h : other ∈ (putInto name stat entries).map Prod.fst) :
    other = name ∨ other ∈ entries.map Prod.fst := by
  induction entries with
  | nil => simpa [putInto] using h
  | cons entry rest ih =>
    obtain ⟨key, held⟩ := entry
    simp only [putInto] at h
    split at h
    · exact .inr (by simpa using h)
    · simp only [List.map_cons, List.mem_cons] at h ⊢
      rcases h with h | h
      · exact .inr (.inl h)
      · exact (ih h).imp_right .inr

theorem putInto_distinct (name : String) (stat : Stat) {entries : List (String × Stat)}
    (h : (entries.map Prod.fst).Nodup) : ((putInto name stat entries).map Prod.fst).Nodup := by
  induction entries with
  | nil => simp [putInto]
  | cons entry rest ih =>
    obtain ⟨key, held⟩ := entry
    simp only [List.map_cons, List.nodup_cons] at h
    simp only [putInto]
    split
    · simpa using h
    next other =>
      simp only [List.map_cons, List.nodup_cons]
      refine ⟨fun hkey => ?_, ih h.2⟩
      rcases mem_names_putInto hkey with same | held
      · exact other same
      · exact h.1 held

/-- Put a statistic under a name: in place of the one that stood there, or behind all others. -/
def put (columns : Columns) (name : String) (stat : Stat) : Columns :=
  ⟨putInto name stat columns.entries, putInto_distinct name stat columns.distinct⟩

def ofList (entries : List (String × Stat)) : Columns :=
  entries.foldl (fun columns (name, stat) => columns.put name stat) empty

def parseEntry (text : String) : Except Error (String × Stat) := (Stat.parse text).map (text, ·)

def parse (text : String) : Except Error Columns :=
  ((Text.pieces ' ' text).mapM parseEntry).map ofList

end Columns

end Rollup
