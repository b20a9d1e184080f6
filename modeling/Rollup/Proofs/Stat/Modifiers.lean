import Rollup.Stat.Parser
import Rollup.Proofs.Text.Lowercase

namespace Rollup

theorem Reduction.ofToken?_name (r : Reduction) : ofToken? r.name = some r := by
  cases r <;> decide

theorem Reduction.eq_name {token : String} {r : Reduction} (h : ofToken? token = some r) :
    token = r.name := by
  unfold ofToken? at h
  have hname := List.find?_some h
  exact (eq_of_beq hname).symm

theorem Measure.ofToken?_name (m : Measure) : ofToken? m.name = some m := by
  cases m <;> decide

theorem Measure.eq_name {token : String} {m : Measure} (h : ofToken? token = some m) :
    token = m.name := by
  unfold ofToken? at h
  have hname := List.find?_some h
  exact (eq_of_beq hname).symm

theorem Reduction.ofToken?_measure (m : Measure) : ofToken? m.name = none := by
  cases m <;> decide

inductive Modifier where
  | reduction (r : Reduction)
  | measure (m : Measure)
  | distinct
deriving DecidableEq

namespace Modifier

def name : Modifier → String
  | .reduction r => r.name
  | .measure m => m.name
  | .distinct => "unique"

def reduction? : Modifier → Option Reduction
  | .reduction r => some r
  | _ => none

def measure? : Modifier → Option Measure
  | .measure m => some m
  | _ => none

theorem sigma_not_mem_name (modifier : Modifier) :
    'σ' ∉ modifier.name.toList ∧ 'ς' ∉ modifier.name.toList := by
  cases modifier with
  | reduction r => cases r <;> decide
  | measure m => cases m <;> decide
  | distinct => decide

end Modifier

namespace Modifiers

variable {seen ms : List Modifier}

/-- At most one reduction and at most one measure. -/
structure Single (ms : List Modifier) : Prop where
  reductions : (ms.filterMap Modifier.reduction?).length ≤ 1
  measures : (ms.filterMap Modifier.measure?).length ≤ 1

theorem Single.of_append (h : Single (seen ++ ms)) : Single seen := by
  have hr := h.reductions
  have hm := h.measures
  rw [List.filterMap_append, List.length_append] at hr hm
  exact ⟨by omega, by omega⟩

theorem Single.perm {ms' : List Modifier} (h : Single ms) (hp : ms.Perm ms') : Single ms' :=
  ⟨(hp.filterMap _).length_eq ▸ h.reductions, (hp.filterMap _).length_eq ▸ h.measures⟩

def ofList (ms : List Modifier) : Modifiers where
  reduction := (ms.filterMap Modifier.reduction?).head?
  measure := (ms.filterMap Modifier.measure?).head?
  distinct := decide (.distinct ∈ ms)

theorem head?_of_perm {α : Type} {xs ys : List α} (hp : xs.Perm ys) (hlen : xs.length ≤ 1) :
    xs.head? = ys.head? := by
  cases xs with
  | nil => rw [hp.nil_eq]
  | cons x xs =>
    have hnil : xs = [] := List.length_eq_zero_iff.mp (by simpa using hlen)
    subst hnil
    rw [List.singleton_perm.mp hp]

theorem ofList_perm {ms' : List Modifier} (h : Single ms) (hp : ms.Perm ms') :
    ofList ms = ofList ms' := by
  simp only [ofList, head?_of_perm (hp.filterMap _) h.reductions,
    head?_of_perm (hp.filterMap _) h.measures, hp.mem_iff]

theorem add_reduction (m : Modifiers) (r : Reduction) :
    m.add r.name =
      if m.reduction.isSome then .error .secondReduction
      else .ok { m with reduction := some r } := by
  simp only [add, Reduction.ofToken?_name]

theorem add_measure (m : Modifiers) (measure : Measure) :
    m.add measure.name =
      if m.measure.isSome then .error .secondMeasure
      else .ok { m with measure := some measure } := by
  simp only [add, Reduction.ofToken?_measure, Measure.ofToken?_name]

theorem add_unique (m : Modifiers) : m.add "unique" = .ok { m with distinct := true } := rfl

theorem exists_name_of_add {m m' : Modifiers} {token : String} (h : m.add token = .ok m') :
    ∃ modifier : Modifier, token = modifier.name := by
  cases hr : Reduction.ofToken? token with
  | some r => exact ⟨.reduction r, Reduction.eq_name hr⟩
  | none =>
    cases hm : Measure.ofToken? token with
    | some measure => exact ⟨.measure measure, Measure.eq_name hm⟩
    | none =>
      by_cases hu : token = "unique"
      · exact ⟨.distinct, hu⟩
      · simp [add, hr, hm, hu] at h

theorem add_name (modifier : Modifier) (hseen : Single seen) (m : Modifiers) :
    (ofList seen).add modifier.name = .ok m ↔
      Single (seen ++ [modifier]) ∧ m = ofList (seen ++ [modifier]) := by
  have hr := hseen.reductions
  have hm := hseen.measures
  cases modifier with
  | reduction r =>
    rw [Modifier.name, add_reduction]
    cases hs : seen.filterMap Modifier.reduction? with
    | nil =>
      have hsingle : Single (seen ++ [.reduction r]) :=
        ⟨by simp [hs, Modifier.reduction?],
          by simpa [List.filterMap_cons, Modifier.measure?] using hm⟩
      simp [ofList, hs, hsingle, Modifier.reduction?, Modifier.measure?, eq_comm]
    | cons first rest =>
      have hdouble : ¬ Single (seen ++ [.reduction r]) := by
        intro h
        simpa [hs, Modifier.reduction?] using h.reductions
      simp [ofList, hs, hdouble]
  | measure measure =>
    rw [Modifier.name, add_measure]
    cases hs : seen.filterMap Modifier.measure? with
    | nil =>
      have hsingle : Single (seen ++ [.measure measure]) :=
        ⟨by simpa [List.filterMap_cons, Modifier.reduction?] using hr,
          by simp [hs, Modifier.measure?]⟩
      simp [ofList, hs, hsingle, Modifier.reduction?, Modifier.measure?, eq_comm]
    | cons first rest =>
      have hdouble : ¬ Single (seen ++ [.measure measure]) := by
        intro h
        simpa [hs, Modifier.measure?] using h.measures
      simp [ofList, hs, hdouble]
  | distinct =>
    have hsingle : Single (seen ++ [.distinct]) :=
      ⟨by simpa [List.filterMap_cons, Modifier.reduction?] using hr,
        by simpa [List.filterMap_cons, Modifier.measure?] using hm⟩
    simp [Modifier.name, add_unique, ofList, hsingle, Modifier.reduction?, Modifier.measure?,
      eq_comm]

theorem foldlM_add (tokens : List String) (hseen : Single seen) (m : Modifiers) :
    tokens.foldlM add (ofList seen) = .ok m ↔
      ∃ ms : List Modifier, tokens = ms.map Modifier.name ∧ Single (seen ++ ms) ∧
        m = ofList (seen ++ ms) := by
  induction tokens generalizing seen with
  | nil =>
    constructor
    · intro h
      refine ⟨[], rfl, by rwa [List.append_nil], ?_⟩
      rw [List.append_nil]
      exact (Except.ok.inj h).symm
    · rintro ⟨ms, hms, _, rfl⟩
      rw [List.map_eq_nil_iff.mp hms.symm, List.append_nil]
      rfl
  | cons token tokens ih =>
    rw [List.foldlM_cons]
    constructor
    · intro h
      cases hadd : (ofList seen).add token with
      | error fault =>
        rw [hadd] at h
        cases h
      | ok next =>
        rw [hadd] at h
        obtain ⟨modifier, rfl⟩ := exists_name_of_add hadd
        obtain ⟨hsingle, rfl⟩ := (add_name modifier hseen next).mp hadd
        obtain ⟨ms, rfl, hall, hm⟩ := (ih hsingle).mp h
        rw [List.append_assoc, List.singleton_append] at hall hm
        exact ⟨modifier :: ms, rfl, hall, hm⟩
    · rintro ⟨ms, hms, hall, hm⟩
      cases ms with
      | nil => cases hms
      | cons modifier ms =>
        obtain ⟨rfl, rfl⟩ := List.cons.inj hms
        rw [← List.singleton_append, ← List.append_assoc] at hall hm
        have hsingle := hall.of_append
        rw [(add_name modifier hseen _).mpr ⟨hsingle, rfl⟩]
        exact (ih hsingle).mpr ⟨ms, rfl, hall, hm⟩

theorem ofTokens_eq_ok {tokens : List String} {m : Modifiers} :
    ofTokens tokens = .ok m ↔
      ∃ ms : List Modifier, tokens = ms.map Modifier.name ∧ Single ms ∧ m = ofList ms :=
  @foldlM_add [] tokens ⟨by decide, by decide⟩ m

end Modifiers

end Rollup
