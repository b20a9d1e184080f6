import Rollup.Columns
import Rollup.Proofs.FirstMentions
import Rollup.Proofs.Text.Cut
import Rollup.Proofs.Traversal

namespace Rollup.Columns

theorem putInto_new {name : String} {entries : List (String × Stat)}
    (h : name ∉ entries.map Prod.fst) (stat : Stat) :
    putInto name stat entries = entries ++ [(name, stat)] := by
  induction entries with
  | nil => rfl
  | cons entry rest ih =>
    rw [List.map_cons, List.mem_cons, not_or] at h
    rw [putInto, if_neg (Ne.symm h.1), ih h.2, List.cons_append]

theorem putInto_old {name : String} {before : List (String × Stat)}
    (h : name ∉ before.map Prod.fst) (held stat : Stat) (after : List (String × Stat)) :
    putInto name stat (before ++ (name, held) :: after) = before ++ (name, stat) :: after := by
  induction before with
  | nil => rw [List.nil_append, putInto, if_pos rfl, List.nil_append]
  | cons entry before ih =>
    rw [List.map_cons, List.mem_cons, not_or] at h
    rw [List.cons_append, putInto, if_neg (Ne.symm h.1), ih h.2, List.cons_append]

theorem putInto_mem {name : String} {stat : Stat} {entries : List (String × Stat)}
    (hdistinct : (entries.map Prod.fst).Nodup) (h : (name, stat) ∈ entries) :
    putInto name stat entries = entries := by
  obtain ⟨before, after, rfl⟩ := List.append_of_mem h
  rw [List.map_append, List.map_cons, List.nodup_middle, List.nodup_cons, List.mem_append,
    not_or] at hdistinct
  exact putInto_old hdistinct.1.1 stat stat after

theorem ofList_concat (entries : List (String × Stat)) (name : String) (stat : Stat) :
    ofList (entries ++ [(name, stat)]) = (ofList entries).put name stat := by
  rw [ofList, List.foldl_append]
  rfl

/-- Where a name always stands for the same statistic, the columns are the first mentions. -/
theorem ofList_eraseDups {entries : List (String × Stat)}
    (h : ∀ a ∈ entries, ∀ b ∈ entries, a.1 = b.1 → a = b) :
    (ofList entries).entries = entries.eraseDups := by
  induction entries using List.reverseRecOn with
  | nil => rfl
  | append_singleton entries entry ih =>
    obtain ⟨name, stat⟩ := entry
    have hentries := ih fun a ha b hb =>
      h a (List.mem_append_left _ ha) b (List.mem_append_left _ hb)
    have hdistinct := (ofList entries).distinct
    rw [ofList_concat, FirstMentions.eraseDups_concat]
    change putInto name stat (ofList entries).entries = _
    rw [hentries] at hdistinct ⊢
    split
    · next hmem => exact putInto_mem hdistinct (List.mem_eraseDups.mpr hmem)
    · next hnew =>
      refine putInto_new ?_ stat
      intro hname
      obtain ⟨other, hother, hsame⟩ := List.mem_map.mp hname
      rw [List.mem_eraseDups] at hother
      have heq := h other (List.mem_append_left _ hother) (name, stat) (by simp) hsame
      exact hnew (heq ▸ hother)

theorem ofList_entries {entries : List (String × Stat)} (h : (entries.map Prod.fst).Nodup) :
    (ofList entries).entries = entries := by
  rw [ofList_eraseDups fun a ha b hb hab => List.inj_on_of_nodup_map h ha hb hab,
    FirstMentions.eraseDups_of_nodup h.of_map]

section Parsing

variable {text : String} {stats : List Stat}

theorem parse_eq (text : String) :
    parse text =
      ((Text.pieces ' ' text).mapM Stat.parse).map fun stats =>
        ofList ((Text.pieces ' ' text).zip stats) := by
  have hentries : (Text.pieces ' ' text).mapM parseEntry =
      ((Text.pieces ' ' text).mapM Stat.parse).map ((Text.pieces ' ' text).zip ·) :=
    Traversal.mapM_paired _
  rw [parse, hentries]
  cases (Text.pieces ' ' text).mapM Stat.parse <;> rfl

theorem parse_eq_ok (h : (Text.pieces ' ' text).mapM Stat.parse = .ok stats) :
    ∃ columns, parse text = .ok columns ∧
      columns.entries = ((Text.pieces ' ' text).zip stats).eraseDups := by
  refine ⟨ofList ((Text.pieces ' ' text).zip stats), by rw [parse_eq, h]; rfl, ?_⟩
  apply ofList_eraseDups
  rintro ⟨name, stat⟩ ha ⟨other, stat'⟩ hb hname
  cases hname
  have hstat := List.forall₂_zip (Traversal.mapM_eq_ok.mp h) ha
  have hother := List.forall₂_zip (Traversal.mapM_eq_ok.mp h) hb
  cases hstat.symm.trans hother
  rfl

theorem parse_entries {columns : Columns} (h : parse text = .ok columns) :
    columns.names = (Text.pieces ' ' text).eraseDups ∧
      ∀ entry ∈ columns.entries, Stat.parse entry.1 = .ok entry.2 := by
  have hparse := h
  rw [parse_eq, Traversal.map_eq_ok] at hparse
  obtain ⟨stats, hstats, -⟩ := hparse
  obtain ⟨columns', hcolumns, hzip⟩ := parse_eq_ok hstats
  cases h.symm.trans hcolumns
  have hforall := Traversal.mapM_eq_ok.mp hstats
  have hreads : ∀ entry ∈ (Text.pieces ' ' text).zip stats, Stat.parse entry.1 = .ok entry.2 :=
    fun _ hentry => List.forall₂_zip hforall hentry
  constructor
  · rw [names, hzip, FirstMentions.map_eraseDups, List.map_fst_zip (Nat.le_of_eq hforall.length_eq)]
    intro a ha b hb hab
    have hstat := hreads a ha
    rw [hab, hreads b hb, Except.ok.injEq] at hstat
    exact Prod.ext hab hstat.symm
  · intro entry hentry
    rw [hzip, List.mem_eraseDups] at hentry
    exact hreads entry hentry

theorem parse_eq_error {piece : String} {e : Error}
    (hfind : (Text.pieces ' ' text).find? (fun piece => !(Stat.parse piece).isOk) = some piece)
    (hpiece : Stat.parse piece = .error e) : parse text = .error e := by
  rw [parse_eq, Traversal.map_eq_error]
  refine Traversal.mapM_first_error ?_ hfind hpiece
  intro other _ hother
  cases hparse : Stat.parse other with
  | error fault =>
    rw [hparse] at hother
    cases hother
  | ok stat => exact ⟨stat, rfl⟩

theorem sortKey?_eq {columns : Columns} (h : parse text = .ok columns) :
    ∃ key, (Text.pieces ' ' text).head? = some key ∧ columns.sortKey? = some key := by
  obtain ⟨key, rest, hpieces⟩ := List.exists_cons_of_ne_nil (Text.pieces_ne_nil ' ' text)
  refine ⟨key, by rw [hpieces, List.head?_cons], ?_⟩
  rw [sortKey?, (parse_entries h).1, hpieces, List.eraseDups_cons, List.head?_cons]

theorem find?_entries (h : (Text.pieces ' ' text).mapM Stat.parse = .ok stats) {columns : Columns}
    (hcolumns : columns.entries = ((Text.pieces ' ' text).zip stats).eraseDups)
    (p : Stat → Bool) : (columns.entries.find? (p ∘ Prod.snd)).map Prod.snd = stats.find? p := by
  have hlength := (Traversal.mapM_eq_ok.mp h).length_eq
  rw [hcolumns, FirstMentions.find?_eraseDups, ← List.find?_map,
    List.map_snd_zip (Nat.le_of_eq hlength.symm)]

theorem findSome?_entries (h : (Text.pieces ' ' text).mapM Stat.parse = .ok stats)
    {columns : Columns}
    (hcolumns : columns.entries = ((Text.pieces ' ' text).zip stats).eraseDups) {β : Type}
    (f : Stat → Option β) : columns.entries.findSome? (f ∘ Prod.snd) = stats.findSome? f := by
  have hlength := (Traversal.mapM_eq_ok.mp h).length_eq
  rw [hcolumns, FirstMentions.findSome?_eraseDups, ← List.findSome?_map,
    List.map_snd_zip (Nat.le_of_eq hlength.symm)]

end Parsing

end Rollup.Columns
