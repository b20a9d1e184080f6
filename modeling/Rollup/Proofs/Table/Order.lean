import Rollup.Proofs.Scalar.Kinds
import Rollup.Proofs.Table.Layout

namespace Rollup

namespace Number

variable {values : List Number}

theorem Unmixed.orderedOn_below (h : Unmixed values) : OrderedOn below values where
  asymm _ _ _ _ := below_asymm
  trans a _ b hb c hc hab hbc := by
    rw [below_eq_false] at hab hbc ⊢
    exact (compare_trans_iff c b a).mpr (h.not_straddled hc hb a) hbc hab

end Number

namespace Table

variable {descending : Bool} {values : List Number}

def leads (descending : Bool) (a b : Number) : Bool :=
  if descending then b.below a else a.below b

theorem leads_eq_false {a b : Number} :
    leads descending b a = false ↔ a.compare b ≠ if descending then .lt else .gt := by
  cases descending with
  | false => exact Number.below_eq_false
  | true => exact Bool.eq_false_iff.trans (not_congr Number.below_eq_true)

theorem leads_of_compare_eq {a b : Number} (h : a.compare b = .eq) :
    leads descending a b = false := by
  rw [leads_eq_false, Number.compare_swap, h]
  cases descending <;> exact nofun

theorem orderedOn_leads (descending : Bool) (h : Number.Unmixed values) :
    OrderedOn (leads descending) values := by
  cases descending with
  | false => exact h.orderedOn_below
  | true => exact h.orderedOn_below.flip

/-- The value at one position goes ahead of the value at another: it is not beyond it, and where
the two are equal it comes first already. -/
def Precedes (descending : Bool) (values : List Number) (i j : Nat) : Prop :=
  ∃ a ∈ values[i]?, ∃ b ∈ values[j]?,
    a.compare b ≠ (if descending then .lt else .gt) ∧ (a.compare b = .eq → i < j)

instance (i j : Nat) : Decidable (Precedes descending values i j) :=
  inferInstanceAs (Decidable (∃ a ∈ values[i]?, ∃ b ∈ values[j]?, _ ∧ _))

theorem Precedes.asymm {i j : Nat} (h : Precedes descending values i j) :
    ¬ Precedes descending values j i := by
  rintro ⟨b', hb', a', ha', hba, hji⟩
  obtain ⟨a, ha, b, hb, hab, hij⟩ := h
  obtain rfl : a = a' := Option.some.inj (ha.symm.trans ha')
  obtain rfl : b = b' := Option.some.inj (hb.symm.trans hb')
  rw [Number.compare_swap b a] at hba hji
  -- Neither value is beyond the other, so they are equal, and each position is less than the other.
  have heq : a.compare b = .eq := by
    cases hcompare : a.compare b with
    | eq => rfl
    | lt | gt =>
      rw [hcompare] at hab hba
      cases descending <;> simp at hab hba
  rw [heq] at hji
  exact Nat.lt_asymm (hij heq) (hji rfl)

/-- All positions, each ahead of those whose values go behind its own. -/
structure Arranges (descending : Bool) (values : List Number) (order : List Nat) : Prop where
  perm : order.Perm (List.range values.length)
  sorted : order.Pairwise (Precedes descending values)

theorem Arranges.unique {order other : List Nat} (h : Arranges descending values order)
    (h' : Arranges descending values other) : order = other :=
  (h.perm.trans h'.perm.symm).eq_of_pairwise (fun _ _ _ _ hij hji => absurd hji hij.asymm)
    h.sorted h'.sorted

theorem arranges_positions (descending : Bool) (h : Number.Unmixed values) :
    Arranges descending values (positions (leads descending) values) where
  perm := positions_perm _ _
  sorted := by
    apply (positions_stable (orderedOn_leads descending h)).imp
    rintro i j ⟨a, b, ha, hb, hbehind, htie⟩
    exact ⟨a, ha, b, hb, leads_eq_false.mp hbehind, fun heq => htie (leads_of_compare_eq heq)⟩

def rowsAt (rows : List Row) (order : List Nat) : List Row := order.filterMap (rows[·]?)

theorem rowsAt_perm {rows : List Row} {order : List Nat}
    (h : order.Perm (List.range rows.length)) : (rowsAt rows order).Perm rows := by
  have hall : (rows.zipIdx.map Prod.snd).filterMap (rows[·]?) = rows.zipIdx.map Prod.fst :=
    filterMap_positions fun _ hplaced => List.mem_zipIdx_iff_getElem?.mp hplaced
  rw [List.zipIdx_map_snd, ← List.range_eq_range', List.zipIdx_map_fst] at hall
  have hperm := h.filterMap (rows[·]?)
  rwa [hall] at hperm

theorem sort_eq_rowsAt (descending : Bool) (hkinds : Number.Unmixed values) {sortKey : String}
    {rows : List Row} (h : rows.map (·.get? sortKey) = values.map some) :
    sort sortKey descending rows =
      .ok (rowsAt rows (positions (leads descending) values)) := by
  have hpairs : ∃ pairs, rows.mapM (keyed sortKey) = .ok pairs := by
    apply Traversal.mapM_succeeds_iff.mpr
    intro row hrow
    have hvalue : row.get? sortKey ∈ values.map some := h ▸ List.mem_map_of_mem hrow
    obtain ⟨value, _, hvalue⟩ := List.mem_map.mp hvalue
    exact ⟨(value, row), keyed_eq_ok.mpr ⟨hvalue.symm, rfl⟩⟩
  obtain ⟨pairs, hpairs⟩ := hpairs
  have hvalues : pairs.map Prod.fst = values :=
    List.map_injective_iff.mpr (fun _ _ => Option.some.inj) ((values_of_keyed hpairs).symm.trans h)
  have hordered : OrderedOn (ahead descending) pairs :=
    (hvalues ▸ orderedOn_leads descending hkinds).of_map
  have hsort : sortBy (ahead descending) pairs =
      (positions (leads descending) values).filterMap (pairs[·]?) := by
    rw [← hvalues]
    exact sortBy_eq_positions (leads descending) Prod.fst pairs
  rw [sort_eq_ok hpairs (sort?_eq_sortBy hordered), rowsAt, ← rows_of_keyed hpairs, hsort,
    List.map_filterMap]
  simp only [List.getElem?_map]

theorem sort_missing (descending : Bool) {sortKey : String} {rows : List Row}
    (h : ∃ row ∈ rows, row.get? sortKey = none) :
    sort sortKey descending rows = .error (.missingKey sortKey) := by
  obtain ⟨missing, hmissing, hnone⟩ := h
  cases hpairs : rows.mapM (keyed sortKey) with
  | ok pairs =>
    obtain ⟨pair, hpair⟩ := Traversal.mapM_succeeds_iff.mp ⟨pairs, hpairs⟩ missing hmissing
    rw [keyed_eq_ok, hnone] at hpair
    cases hpair.1
  | error e =>
    obtain ⟨row, _, hrow⟩ := Traversal.error_of_mapM hpairs
    rw [keyed, Traversal.map_eq_error, Row.value] at hrow
    split at hrow
    · cases hrow
    · cases hrow
      rw [sort, hpairs]
      rfl

/-- Over numbers of one kind the values alone arrange the rows of a table, and there is one
arrangement. A row without a value leaves no table. -/
theorem renderSorted_arranged (descending : Bool) :
    (∀ values : List Number, Number.Unmixed values →
      ∃ order : List Nat, Arranges descending values order ∧
        (∀ other, Arranges descending values other → other = order) ∧
        ∀ (sortKey : String) (rows : List Row), rows.map (·.get? sortKey) = values.map some →
          (rowsAt rows order).Perm rows ∧
          ∀ (label : String) (style : Style),
            renderSorted label sortKey descending style rows =
              render label style (rowsAt rows order)) ∧
    ∀ (sortKey : String) (rows : List Row), (∃ row ∈ rows, row.get? sortKey = none) →
      ∀ (label : String) (style : Style),
        renderSorted label sortKey descending style rows = .error (.missingKey sortKey) := by
  constructor
  · intro values hunmixed
    have harranges := arranges_positions descending hunmixed
    refine ⟨_, harranges, fun other hother => hother.unique harranges, ?_⟩
    intro sortKey rows hvalues
    have hlength : values.length = rows.length := by
      simpa using (congrArg List.length hvalues).symm
    refine ⟨rowsAt_perm (hlength ▸ harranges.perm), fun label style => ?_⟩
    rw [renderSorted, sort_eq_rowsAt descending hunmixed hvalues]
    rfl
  · intro sortKey rows hmissing label style
    rw [renderSorted, sort_missing descending hmissing]
    rfl

/-- Downwards the two equal values go behind the greater one, in the order they came in. -/
theorem renderSorted_arranged_tied :
    Arranges true [.int 2, .int 5, .int 2] [1, 0, 2] ∧
      renderSorted "genre" "count" true .plain
          [⟨.text "jazz", [("count", .int 2)]⟩, ⟨.text "folk", [("count", .int 5)]⟩,
            ⟨.text "rock", [("count", .int 2)]⟩] =
        render "genre" .plain
          [⟨.text "folk", [("count", .int 5)]⟩, ⟨.text "jazz", [("count", .int 2)]⟩,
            ⟨.text "rock", [("count", .int 2)]⟩] ∧
      renderSorted "genre" "mean" true .plain
          [⟨.text "jazz", [("count", .int 2)]⟩, ⟨.text "folk", [("mean", .int 5)]⟩] =
        .error (.missingKey "mean") := by
  have hunmixed : Number.Unmixed [.int 2, .int 5, .int 2] := fun n x _ hx => by simp at hx
  have harranges : Arranges true [.int 2, .int 5, .int 2] [1, 0, 2] := ⟨by decide, by decide⟩
  obtain ⟨hsorted, hmissing⟩ := renderSorted_arranged true
  obtain ⟨order, -, hunique, hrender⟩ := hsorted _ hunmixed
  obtain rfl := hunique _ harranges
  exact ⟨harranges, (hrender "count" _ rfl).2 "genre" .plain,
    hmissing "mean" _ ⟨_, List.mem_cons_self, rfl⟩ "genre" .plain⟩

end Table

end Rollup
