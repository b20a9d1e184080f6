import Rollup.Proofs.Columns.History
import Rollup.Proofs.Summary.Outcome

namespace Rollup

theorem Modifiers.add_ne_noStats (m : Modifiers) (token : String) :
    m.add token ≠ .error .noStats := by
  unfold add
  split
  · split <;> nofun
  · split <;> nofun
  · split <;> nofun

theorem Modifiers.foldlM_ne_noStats (tokens : List String) (m : Modifiers) :
    tokens.foldlM add m ≠ .error .noStats := by
  induction tokens generalizing m with
  | nil => nofun
  | cons token tokens ih =>
    rw [List.foldlM_cons]
    cases hadd : m.add token with
    | error fault =>
      intro h
      cases h
      exact add_ne_noStats m token hadd
    | ok next => exact ih next

theorem Stat.parse_ne_noStats (text stat : String) :
    parse text ≠ .error (.malformedStat stat .noStats) := by
  have hread : read (Text.lowercase text) ≠ .error .noStats := by
    unfold read
    split
    · nofun
    · split
      · nofun
      · dsimp only
        split
        · nofun
        · intro h
          exact Modifiers.foldlM_ne_noStats _ _ (Traversal.map_eq_error.mp h)
  intro h
  rw [parse] at h
  cases hfault : read (Text.lowercase text) with
  | ok _ =>
    rw [hfault] at h
    cases h
  | error fault =>
    rw [hfault] at h
    cases h
    exact hread hfault

namespace Columns

/-- Columns for pieces: a name for each of them, in the order of first mention, under which stands
the statistic that it is read as. The first piece names the column to sort by. -/
structure Reads (pieces : List String) (columns : Columns) : Prop where
  names : columns.names = pieces.eraseDups
  get? : ∀ piece ∈ pieces, ∃ stat, Stat.parse piece = .ok stat ∧ columns.get? piece = some stat
  sortKey : ∃ piece, pieces.head? = some piece ∧ columns.sortKey? = some piece

variable {pieces : List String} {columns other : Columns} {text : String}

theorem Reads.unique (h : Reads pieces columns) (h' : Reads pieces other) : columns = other := by
  apply eq_of_get? (h.names.trans h'.names.symm)
  intro name hname
  rw [h.names, List.mem_eraseDups] at hname
  obtain ⟨stat, hparse, hget⟩ := h.get? name hname
  obtain ⟨stat', hparse', hget'⟩ := h'.get? name hname
  cases hparse.symm.trans hparse'
  rw [hget, hget']

theorem reads_of_parse (h : parse text = .ok columns) : Reads (Text.pieces ' ' text) columns := by
  obtain ⟨hnames, hreads⟩ := parse_entries h
  refine ⟨hnames, ?_, sortKey?_eq h⟩
  intro piece hpiece
  rw [← List.mem_eraseDups, ← hnames] at hpiece
  obtain ⟨entry, hentry, rfl⟩ := List.mem_map.mp hpiece
  exact ⟨entry.2, hreads entry hentry, lookup_of_mem columns.distinct hentry⟩

theorem parse_succeeds_iff :
    (∃ columns, parse text = .ok columns) ↔
      ∀ piece ∈ Text.pieces ' ' text, ∃ stat, Stat.parse piece = .ok stat := by
  rw [← Traversal.mapM_succeeds_iff, parse_eq]
  constructor
  · rintro ⟨columns, h⟩
    obtain ⟨stats, hstats, -⟩ := Traversal.map_eq_ok.mp h
    exact ⟨stats, hstats⟩
  · rintro ⟨stats, hstats⟩
    exact ⟨_, Traversal.map_eq_ok.mpr ⟨stats, hstats, rfl⟩⟩

theorem parse_eq_ok_iff : parse text = .ok columns ↔ Reads (Text.pieces ' ' text) columns := by
  refine ⟨reads_of_parse, fun h => ?_⟩
  have hparsed : ∃ columns, parse text = .ok columns := by
    apply parse_succeeds_iff.mpr
    intro piece hpiece
    obtain ⟨stat, hparse, -⟩ := h.get? piece hpiece
    exact ⟨stat, hparse⟩
  obtain ⟨parsed, hparsed⟩ := hparsed
  rw [hparsed, (reads_of_parse hparsed).unique h]

theorem parse_eq_error_iff {e : Error} :
    parse text = .error e ↔ ∃ before piece after, Text.pieces ' ' text = before ++ piece :: after ∧
      (∀ other ∈ before, ∃ stat, Stat.parse other = .ok stat) ∧ Stat.parse piece = .error e := by
  rw [parse_eq, Traversal.map_eq_error, Traversal.mapM_eq_error]

theorem Reads.get?_of_lowercase (h : Reads pieces columns) {piece other : String}
    (hpiece : piece ∈ pieces) (hother : other ∈ pieces)
    (hsame : Text.lowercase piece = Text.lowercase other) :
    columns.get? piece = columns.get? other := by
  obtain ⟨stat, hparse, hget⟩ := h.get? piece hpiece
  obtain ⟨stat', hparse', hget'⟩ := h.get? other hother
  rw [Stat.parse] at hparse hparse'
  rw [hsame] at hparse
  cases hread : Stat.read (Text.lowercase other) with
  | error fault =>
    rw [hread] at hparse
    cases hparse
  | ok read =>
    rw [hread] at hparse hparse'
    cases hparse
    cases hparse'
    rw [hget, hget']

theorem parse_spaced
    (h : text.toList.head? = some ' ' ∨ text.toList.getLast? = some ' ' ∨
      [' ', ' '] <:+: text.toList) : ∃ e, parse text = .error e := by
  have hempty : "" ∈ Text.pieces ' ' text := List.mem_map.mpr ⟨[], Text.nil_mem_splitOn h, rfl⟩
  cases hparse : parse text with
  | error e => exact ⟨e, rfl⟩
  | ok columns =>
    obtain ⟨stat, hstat, -⟩ := (reads_of_parse hparse).get? "" hempty
    cases hstat

/-- A text is read as columns exactly if each of its pieces is a statistic. They are then those of
the pieces, and otherwise the first piece that is none decides the error. So a space at an end of
the text or behind another one is an error, and no run is ever left without a statistic. -/
theorem parse_reads_pieces (text : String) :
    let pieces := Text.pieces ' ' text
    (∀ columns, parse text = .ok columns ↔ Reads pieces columns) ∧
    (∀ columns, Reads pieces columns → ∀ piece ∈ pieces, ∀ other ∈ pieces,
      Text.lowercase piece = Text.lowercase other → columns.get? piece = columns.get? other) ∧
    ((∃ columns, parse text = .ok columns) ↔
      ∀ piece ∈ pieces, ∃ stat, Stat.parse piece = .ok stat) ∧
    (∀ e, parse text = .error e ↔ ∃ before piece after, pieces = before ++ piece :: after ∧
      (∀ other ∈ before, ∃ stat, Stat.parse other = .ok stat) ∧ Stat.parse piece = .error e) ∧
    (text.toList.head? = some ' ' ∨ text.toList.getLast? = some ' ' ∨
      [' ', ' '] <:+: text.toList → ∃ e, parse text = .error e) ∧
    ∀ (library : Library) (options : Options) (stat : String),
      Summary.compute library options ≠ .error (.malformedStat stat .noStats) := by
  refine ⟨fun _ => parse_eq_ok_iff, fun _ h _ hpiece _ hother => h.get?_of_lowercase hpiece hother,
    parse_succeeds_iff, fun _ => parse_eq_error_iff, parse_spaced, ?_⟩
  intro library options stat herror
  obtain ⟨piece, fault, heq, hparse⟩ | h := (Summary.compute_eq_error_iff.mp herror).errors
  · exact Stat.parse_ne_noStats _ _ hparse
  · simp at h

end Columns

end Rollup
