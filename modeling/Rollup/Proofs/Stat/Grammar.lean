import Mathlib.Data.List.Perm.Basic
import Rollup.Proofs.Stat.Modifiers

namespace Rollup.Stat

open Text

/-- A text cut at its last bar. Without a bar all of it is the field. -/
inductive CutAtBar : List Char → List Char → List Char → Prop
  | bare {text : List Char} (h : '|' ∉ text) : CutAtBar text [] text
  | barred {modifiers field : List Char} (h : '|' ∉ field) :
      CutAtBar (modifiers ++ '|' :: field) modifiers field

/-- Each piece between colons is the name of a modifier in some letter case. A text without
characters names none. -/
def Spells (text : List Char) (ms : List Modifier) : Prop :=
  if text = [] then ms = [] else (text.splitOn ':').map lower = ms.map (·.name.toList)

/-- The statistics that a text may stand for, besides the word `count`. -/
inductive Written (text : String) : Stat → Prop
  | intro {modifiers field : List Char} {ms : List Modifier}
      (hcut : CutAtBar text.toList modifiers field) (hfield : field ≠ [])
      (hspells : Spells modifiers ms) (hsingle : Modifiers.Single ms) :
      Written text
        { field := String.ofList (lower field)
          reduction := (ms.filterMap Modifier.reduction?).head?.getD .sum
          measure := (ms.filterMap Modifier.measure?).head?
          distinct := decide (.distinct ∈ ms) }

variable {text modifiers field : List Char}

theorem barrier_bar : Barrier '|' := ⟨by decide, by decide +kernel, by decide +kernel⟩

theorem exists_cutAtBar (text : List Char) : ∃ modifiers field, CutAtBar text modifiers field := by
  by_cases h : '|' ∈ text
  · obtain ⟨after, before, hrev, hafter⟩ := List.eq_append_cons_of_mem (List.mem_reverse.mpr h)
    have htext : text = before.reverse ++ '|' :: after.reverse := by
      rw [← List.reverse_reverse text, hrev]
      simp
    subst htext
    exact ⟨_, _, .barred (by rwa [List.mem_reverse])⟩
  · exact ⟨_, _, .bare h⟩

theorem CutAtBar.field_eq_nil (h : CutAtBar text modifiers field) (hnil : text = []) :
    field = [] := by
  cases h with
  | bare _ => exact hnil
  | barred _ => simp at hnil

theorem splitField_lower (h : CutAtBar text modifiers field) :
    splitField (lower text) = (lower modifiers, lower field) := by
  cases h with
  | bare hbar =>
    rw [splitField, cutLast?_of_not_mem (by rwa [lower, mem_lowerFrom barrier_bar.mark])]
    rfl
  | barred hbar =>
    have hcut : lower (modifiers ++ '|' :: field) = lower modifiers ++ '|' :: lower field :=
      lowerFrom_barrier barrier_bar [] modifiers field
    rw [splitField, hcut, cutLast?_append _ (by rwa [lower, mem_lowerFrom barrier_bar.mark])]
    rfl

theorem map_joinSigma_eq {word : List Char} (h : 'σ' ∉ word ∧ 'ς' ∉ word) (cs : List Char) :
    cs.map joinSigma = word ↔ cs = word := by
  induction cs generalizing word with
  | nil => rw [List.map_nil]
  | cons c cs ih =>
    cases word with
    | nil => simp
    | cons w word =>
      simp only [List.mem_cons, not_or] at h
      rw [List.map_cons, List.cons_eq_cons, List.cons_eq_cons, ih ⟨h.1.2, h.2.2⟩,
        joinSigma_eq ⟨Ne.symm h.1.1, Ne.symm h.2.1⟩]

theorem map_joinSigma_eq_names (pieces : List (List Char)) (ms : List Modifier) :
    pieces.map (List.map joinSigma) = ms.map (·.name.toList) ↔
      pieces = ms.map (·.name.toList) := by
  induction pieces generalizing ms with
  | nil => rw [List.map_nil]
  | cons piece pieces ih =>
    cases ms with
    | nil => simp
    | cons modifier ms =>
      rw [List.map_cons, List.map_cons, List.cons_eq_cons, List.cons_eq_cons, ih,
        map_joinSigma_eq modifier.sigma_not_mem_name]

/-- Only the form of a sigma tells the tokens of a lowercased text from its lowercased tokens, and
no modifier has a sigma. -/
theorem modifierTokens_lower (modifiers : List Char) (ms : List Modifier) :
    modifierTokens (lower modifiers) = ms.map Modifier.name ↔ Spells modifiers ms := by
  unfold modifierTokens Spells
  by_cases h : modifiers = []
  · subst h
    rw [if_pos rfl, if_pos (by rfl), eq_comm, List.map_eq_nil_iff]
  · have hne : lower modifiers ≠ [] := fun he => h (lowerFrom_eq_nil.mp he)
    have hchars (pieces : List (List Char)) :
        pieces.map String.ofList = ms.map Modifier.name ↔ pieces = ms.map (·.name.toList) := by
      constructor
      · intro heq
        have := congrArg (List.map String.toList) heq
        simpa [Function.comp_def] using this
      · rintro rfl
        simp [Function.comp_def]
    rw [if_neg h, if_neg (by simpa using hne), hchars, ← map_joinSigma_eq_names,
      splitOn_lower (by decide), map_joinSigma_eq_names]

theorem parse_count {text : String} (h : lowercase text = "count") : parse text = .ok count := by
  rw [parse, h]
  rfl

theorem parse_eq_ok {text : String} (hcount : lowercase text ≠ "count")
    (hcut : CutAtBar text.toList modifiers field) (stat : Stat) :
    parse text = .ok stat ↔
      field ≠ [] ∧ ∃ m, Modifiers.ofTokens (modifierTokens (lower modifiers)) = .ok m ∧
        stat = m.toStat (String.ofList (lower field)) := by
  have hlower : lowercase text = String.ofList (lower text.toList) := rfl
  by_cases hempty : text.toList = []
  · have hfield : field = [] := hcut.field_eq_nil hempty
    have hread : parse text = .error (.malformedStat text .empty) := by
      rw [parse, hlower, hempty]
      rfl
    rw [hread]
    simp [hfield]
  · have hne : lowercase text ≠ "" := by
      rw [hlower]
      intro he
      have := congrArg String.toList he
      rw [String.toList_ofList] at this
      exact hempty (lowerFrom_eq_nil.mp this)
    have hcount' : ¬ lowercase text = Reduction.count.name := hcount
    rw [parse, read, if_neg hne, if_neg hcount', hlower, String.toList_ofList,
      splitField_lower hcut]
    by_cases hfield : field = []
    · subst hfield
      simp [lower, lowerFrom, Except.mapError]
    · have hlf : (lower field).isEmpty = false := by
        simpa [lower, lowerFrom_eq_nil] using hfield
      simp only [hlf]
      cases Modifiers.ofTokens (modifierTokens (lower modifiers)) with
      | error fault => simp [Except.map, Except.mapError]
      | ok m => simp [Except.map, Except.mapError, hfield, eq_comm]

theorem ofTokens_lower_eq_ok (modifiers : List Char) (m : Modifiers) :
    Modifiers.ofTokens (modifierTokens (lower modifiers)) = .ok m ↔
      ∃ ms, Spells modifiers ms ∧ Modifiers.Single ms ∧ m = Modifiers.ofList ms := by
  simp only [Modifiers.ofTokens_eq_ok, modifierTokens_lower]

theorem parse_eq_ok_iff_written {text : String} (hcount : lowercase text ≠ "count") (stat : Stat) :
    parse text = .ok stat ↔ Written text stat := by
  constructor
  · intro h
    obtain ⟨modifiers, field, hcut⟩ := exists_cutAtBar text.toList
    obtain ⟨hfield, m, hm, rfl⟩ := (parse_eq_ok hcount hcut stat).mp h
    obtain ⟨ms, hspells, hsingle, rfl⟩ := (ofTokens_lower_eq_ok modifiers m).mp hm
    exact .intro hcut hfield hspells hsingle
  · intro h
    cases h with
    | @intro modifiers field ms hcut hfield hspells hsingle =>
      refine (parse_eq_ok hcount hcut _).mpr ⟨hfield, Modifiers.ofList ms, ?_, rfl⟩
      exact (ofTokens_lower_eq_ok modifiers _).mpr ⟨ms, hspells, hsingle, rfl⟩

theorem parse_error {text : String} {e : Error} (h : parse text = .error e) :
    ∃ fault, e = .malformedStat text fault := by
  unfold parse at h
  cases hread : read (lowercase text) with
  | ok stat =>
    rw [hread] at h
    cases h
  | error fault =>
    rw [hread] at h
    cases h
    exact ⟨fault, rfl⟩

theorem eq_nil_of_pieces (sep : Char) {text : List Char}
    (h : ((text.splitOn sep).map lower).Perm [[]]) : text = [] := by
  have hpieces := List.perm_singleton.mp h
  obtain ⟨piece, hpiece, hlower⟩ := List.map_eq_singleton_iff.mp hpieces
  have hnil : piece = [] := lowerFrom_eq_nil.mp hlower
  have hjoin : [sep].intercalate (text.splitOn sep) = text := List.intercalate_splitOn sep
  rw [hpiece, hnil] at hjoin
  exact hjoin.symm

theorem Spells.perm {modifiers' : List Char} {ms : List Modifier} (h : Spells modifiers ms)
    (hp : ((modifiers.splitOn ':').map lower).Perm ((modifiers'.splitOn ':').map lower)) :
    ∃ ms', Spells modifiers' ms' ∧ ms'.Perm ms := by
  by_cases hnil : modifiers = []
  · subst hnil
    have hnil' : modifiers' = [] := eq_nil_of_pieces ':' hp.symm
    subst hnil'
    exact ⟨ms, h, .refl _⟩
  · have hnil' : modifiers' ≠ [] := by
      rintro rfl
      exact hnil (eq_nil_of_pieces ':' hp)
    rw [Spells, if_neg hnil] at h
    rw [h] at hp
    have hcomp := congrFun (congrFun (List.eq_map_comp_perm (·.name.toList))
      ((modifiers'.splitOn ':').map lower)) ms
    obtain ⟨ms', hms', hperm⟩ := hcomp.mpr hp.symm
    exact ⟨ms', by rwa [Spells, if_neg hnil'], hperm⟩

theorem lowercase_ne_count (h : '|' ∈ text) : lowercase (String.ofList text) ≠ "count" := by
  intro hcount
  have htext := congrArg String.toList hcount
  rw [lowercase, String.toList_ofList, String.toList_ofList] at htext
  rw [← mem_lowerFrom barrier_bar.mark [] text] at h
  change '|' ∈ lower text at h
  rw [htext] at h
  exact absurd h (by decide)

theorem parse_perm {modifiers' : List Char} (hfield : '|' ∉ field)
    (hp : ((modifiers.splitOn ':').map lower).Perm ((modifiers'.splitOn ':').map lower))
    {stat : Stat} (h : parse (String.ofList (modifiers ++ '|' :: field)) = .ok stat) :
    parse (String.ofList (modifiers' ++ '|' :: field)) = .ok stat := by
  have hcount (ms : List Char) : lowercase (String.ofList (ms ++ '|' :: field)) ≠ "count" :=
    lowercase_ne_count (by simp)
  have hcut (ms : List Char) :
      CutAtBar (String.ofList (ms ++ '|' :: field)).toList ms field := by
    rw [String.toList_ofList]
    exact .barred hfield
  obtain ⟨hne, m, hm, rfl⟩ := (parse_eq_ok (hcount _) (hcut _) stat).mp h
  obtain ⟨ms, hspells, hsingle, rfl⟩ := (ofTokens_lower_eq_ok modifiers m).mp hm
  obtain ⟨ms', hspells', hperm⟩ := hspells.perm hp
  refine (parse_eq_ok (hcount _) (hcut _) _).mpr ⟨hne, Modifiers.ofList ms, ?_, rfl⟩
  exact (ofTokens_lower_eq_ok modifiers' _).mpr
    ⟨ms', hspells', hsingle.perm hperm.symm, Modifiers.ofList_perm hsingle hperm.symm⟩

/-- The word `count` counts items. Any other text is read as the grammar has it or refused by its
own name. Modifiers that change places or letter case change nothing. -/
theorem parse_reads_grammar :
    (∀ text, lowercase text = "count" → parse text = .ok count) ∧
    (∀ text, lowercase text ≠ "count" →
      (∀ stat, parse text = .ok stat ↔ Written text stat) ∧
      ((∀ stat, ¬ Written text stat) →
        ∃ fault, parse text = .error (.malformedStat text fault))) ∧
    ∀ modifiers modifiers' field : List Char, '|' ∉ field →
      ((modifiers.splitOn ':').map lower).Perm ((modifiers'.splitOn ':').map lower) →
      (parse (String.ofList (modifiers ++ '|' :: field))).toOption =
        (parse (String.ofList (modifiers' ++ '|' :: field))).toOption := by
  refine ⟨fun _ => parse_count, fun text hcount => ⟨parse_eq_ok_iff_written hcount, ?_⟩, ?_⟩
  · intro hnone
    cases hparse : parse text with
    | ok stat => exact absurd ((parse_eq_ok_iff_written hcount stat).mp hparse) (hnone stat)
    | error e =>
      obtain ⟨fault, rfl⟩ := parse_error hparse
      exact ⟨fault, rfl⟩
  · intro modifiers modifiers' field hfield hp
    cases hparse : parse (String.ofList (modifiers ++ '|' :: field)) with
    | ok stat => rw [parse_perm hfield hp hparse]
    | error e =>
      cases hparse' : parse (String.ofList (modifiers' ++ '|' :: field)) with
      | ok stat =>
        rw [parse_perm hfield hp.symm hparse'] at hparse
        cases hparse
      | error e' => rfl

example : (parse "Unique:AVG|ΟΔΟΣ").toOption = some ⟨"οδος", .avg, none, true⟩ := by
  decide +kernel

end Rollup.Stat
