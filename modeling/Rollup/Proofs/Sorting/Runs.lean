import Mathlib.Data.List.Chain
import Rollup.Proofs.Sorting.Short

namespace Rollup

variable {α : Type} {below : α → α → Bool}

/-- A relation between lists and what a sort makes of them that merging preserves. -/
structure Mergeable (below : α → α → Bool) (R : List α → List α → Prop) : Prop where
  upwards {xs : List α} : xs.IsChain (fun a b => below b a = false) → R xs xs
  downwards {xs : List α} : xs.IsChain (fun a b => below b a = true) → R xs xs.reverse
  merge {xs ys xs' ys' : List α} :
    R xs xs' → R ys ys' → R (xs ++ ys) (mergeSorted below xs' ys')

theorem mergeSorted_perm (left right : List α) :
    (mergeSorted below left right).Perm (left ++ right) := by
  rw [mergeSorted]
  split
  · exact List.merge_perm_append _
  · refine (List.reverse_perm _).trans ((List.merge_perm_append _).trans ?_)
    rw [← List.reverse_append]
    exact List.reverse_perm _

theorem mergeable_perm : Mergeable below fun xs ys => ys.Perm xs where
  upwards _ := .refl _
  downwards _ := List.reverse_perm _
  merge hx hy := (mergeSorted_perm _ _).trans (hx.append hy)

section Ranks

variable {rank : α → Int} {xs : List α}

theorem Sorts.of_descending (h : xs.Pairwise fun a b => rank b < rank a) :
    Sorts rank xs xs.reverse where
  ascending := List.pairwise_reverse.mpr (h.imp Int.le_of_lt)
  stable r := by
    rw [List.filter_reverse]
    have hfilter := h.filter (fun a => decide (rank a = r))
    have hrank : ∀ a ∈ xs.filter (rank · = r), rank a = r := by simp
    match xs.filter (rank · = r), hfilter, hrank with
    | [], _, _ | [_], _, _ => rfl
    | a :: b :: _, hfilter, hrank =>
      have hab := List.rel_of_pairwise_cons hfilter List.mem_cons_self
      rw [hrank a (by simp), hrank b (by simp)] at hab
      omega

theorem mergeable_sorts : Mergeable (byRank rank) (Sorts rank) where
  upwards h := by
    refine .refl (List.pairwise_map.mp (List.IsChain.pairwise ?_))
    rw [List.isChain_map]
    exact h.imp fun a b hab => by simpa [byRank] using hab
  downwards h := by
    refine .of_descending (List.pairwise_map.mp (List.IsChain.pairwise (R := (· > ·)) ?_))
    rw [List.isChain_map]
    exact h.imp fun a b hab => by simpa [byRank] using hab
  merge hx hy := hx.mergeSorted hy

end Ranks

theorem stretch_isChain (below : α → α → Bool) (descending : Bool) (x : α) (xs : List α) :
    (x :: xs.take (stretch below descending x xs)).IsChain fun a b => below b a = descending := by
  induction xs generalizing x with
  | nil => exact List.IsChain.singleton x
  | cons y xs ih =>
    rw [stretch]
    split
    · next h =>
      rw [List.take_succ_cons]
      exact List.isChain_cons_cons.mpr ⟨h, ih y⟩
    · exact List.IsChain.singleton x

variable {R : List α → List α → Prop}

/-- What a run says of the stretch of a list that it stands for. -/
structure Run.Of (R : List α → List α → Prop) (raw : List α) (run : Run α) : Prop where
  sorted : run.sorted = true → R raw run.items
  unsorted : run.sorted = false → run.items = raw

theorem Run.Of.of_sorted {raw items : List α} (h : R raw items) : (Run.mk items true).Of R raw where
  sorted _ := h
  unsorted := by simp

theorem Run.Of.of_unsorted (R : List α → List α → Prop) (raw : List α) :
    (Run.mk raw false).Of R raw where
  sorted := by simp
  unsorted _ := rfl

inductive RunsOf (R : List α → List α → Prop) : List α → List (Run α) → Prop where
  | nil : RunsOf R [] []
  | cons {raw rest : List α} {run : Run α} {runs : List (Run α)} :
    run.Of R raw → RunsOf R rest runs → RunsOf R (raw ++ rest) (run :: runs)

theorem runs_of (hR : Mergeable below R) (goal piece : Nat) (xs : List α) :
    RunsOf R xs (runs below goal piece xs) := by
  fun_induction runs below goal piece xs with
  | case1 => exact .nil
  | case2 x xs descending n h run ih =>
    have hrun : (Run.mk (if descending then run.reverse else run) true).Of R run := by
      apply Run.Of.of_sorted
      have hchain := stretch_isChain below descending x xs
      split
      · next hdown => exact hR.downwards (hdown ▸ hchain)
      · next hup => exact hR.upwards (Bool.eq_false_iff.mpr hup ▸ hchain)
    have hruns := RunsOf.cons hrun ih
    rwa [List.cons_append, List.take_append_drop] at hruns
  | case3 x xs descending n h ih =>
    have hruns := RunsOf.cons (Run.Of.of_unsorted R (x :: xs.take (piece - 1))) ih
    rwa [List.cons_append, List.take_append_drop] at hruns

namespace Run

variable {sort : List α → Option (List α)} (hsort : ∀ xs ys, sort xs = some ys → R xs ys)
include hsort

theorem Of.settle? {raw ys : List α} {run : Run α} (h : run.Of R raw)
    (hsettle : run.settle? sort = some ys) : R raw ys := by
  rw [Run.settle?] at hsettle
  split at hsettle
  · next hsorted =>
    obtain rfl := Option.some.inj hsettle
    exact h.sorted hsorted
  · next hunsorted =>
    rw [h.unsorted (Bool.eq_false_iff.mpr hunsorted)] at hsettle
    exact hsort raw ys hsettle

theorem mapM_settled?_of {raw : List α} {runs settled : List (Run α)} (h : RunsOf R raw runs)
    (hsettled : runs.mapM (settled? sort) = some settled) : RunsOf R raw settled := by
  induction h generalizing settled with
  | nil =>
    obtain rfl := Option.some.inj hsettled
    exact .nil
  | @cons raw rest run runs hrun hruns ih =>
    simp only [List.mapM_cons, settled?, Option.bind_eq_bind, Option.bind_eq_some_iff,
      Option.map_eq_some_iff, Option.pure_def, Option.some.injEq] at hsettled
    obtain ⟨_, ⟨ys, hys, rfl⟩, settled, hrest, rfl⟩ := hsettled
    exact .cons (.of_sorted (hrun.settle? hsort hys)) (ih hrest)

variable (hR : Mergeable below R)
include hR

theorem Of.join? {rawLeft rawRight : List α} {left right whole : Run α} {room : Nat}
    (hleft : left.Of R rawLeft) (hright : right.Of R rawRight)
    (h : left.join? below sort room right = some whole) : whole.Of R (rawLeft ++ rawRight) := by
  rw [Run.join?] at h
  split at h
  · simp only [Option.bind_eq_bind, Option.bind_eq_some_iff, Option.some.injEq] at h
    obtain ⟨xs, hxs, ys, hys, rfl⟩ := h
    exact .of_sorted (hR.merge (hleft.settle? hsort hxs) (hright.settle? hsort hys))
  · next hunsorted =>
    simp only [Bool.or_eq_true, not_or, Bool.not_eq_true] at hunsorted
    obtain rfl := Option.some.inj h
    rw [hleft.unsorted hunsorted.1.1, hright.unsorted hunsorted.1.2]
    exact .of_unsorted R _

/-- The stack holds the runs of a stretch backwards. -/
inductive StackOf (R : List α → List α → Prop) : List α → List (Run α × Nat) → Prop where
  | nil : StackOf R [] []
  | cons {ahead raw : List α} {stack : List (Run α × Nat)} {run : Run α} {depth : Nat} :
    StackOf R ahead stack → run.Of R raw → StackOf R (ahead ++ raw) ((run, depth) :: stack)

theorem collapse?_of {room depth : Nat} {ahead raw : List α} {stack : List (Run α × Nat)}
    {run : Run α} {result : List (Run α × Nat) × Run α} (hstack : StackOf R ahead stack)
    (hrun : run.Of R raw) (h : collapse? below sort room depth stack run = some result) :
    ∃ ahead' raw', StackOf R ahead' result.1 ∧ result.2.Of R raw' ∧
      ahead' ++ raw' = ahead ++ raw := by
  induction hstack generalizing run raw with
  | nil =>
    obtain rfl := Option.some.inj h
    exact ⟨[], raw, .nil, hrun, rfl⟩
  | @cons ahead rawLeft stack left due hstack hleft ih =>
    rw [collapse?] at h
    split at h
    · rw [Option.bind_eq_bind, Option.bind_eq_some_iff] at h
      obtain ⟨joined, hjoined, h⟩ := h
      obtain ⟨ahead', raw', hstack', hrun', happend⟩ := ih (hleft.join? hsort hR hrun hjoined) h
      exact ⟨ahead', raw', hstack', hrun', by rw [happend, List.append_assoc]⟩
    · obtain rfl := Option.some.inj h
      exact ⟨ahead ++ rawLeft, raw, .cons hstack hleft, hrun, rfl⟩

omit hsort hR in
theorem collapse?_zero {room : Nat} {stack : List (Run α × Nat)} {run : Run α}
    {result : List (Run α × Nat) × Run α}
    (h : collapse? below sort room 0 stack run = some result) : result.1 = [] := by
  induction stack generalizing run with
  | nil =>
    obtain rfl := Option.some.inj h
    rfl
  | cons entry stack ih =>
    rw [collapse?, if_pos (Nat.zero_le _), Option.bind_eq_bind, Option.bind_eq_some_iff] at h
    obtain ⟨joined, _, h⟩ := h
    exact ih h

theorem joinAll?_of {length start : Nat} {ahead raw after : List α} {stack : List (Run α × Nat)}
    {run whole : Run α} {rest : List (Run α)} (hstack : StackOf R ahead stack)
    (hrun : run.Of R raw) (hrest : RunsOf R after rest)
    (h : joinAll? below sort length start stack run rest = some whole) :
    whole.Of R (ahead ++ raw ++ after) := by
  induction hrest generalizing start ahead stack raw run with
  | nil =>
    rw [joinAll?, Option.map_eq_some_iff] at h
    obtain ⟨result, hresult, rfl⟩ := h
    obtain ⟨ahead', raw', hstack', hrun', happend⟩ := collapse?_of hsort hR hstack hrun hresult
    rw [collapse?_zero hresult] at hstack'
    cases hstack'
    rwa [← happend, List.append_nil]
  | @cons rawNext after next rest hnext hrest ih =>
    rw [joinAll?, Option.bind_eq_bind, Option.bind_eq_some_iff] at h
    obtain ⟨result, hresult, h⟩ := h
    obtain ⟨ahead', raw', hstack', hrun', happend⟩ := collapse?_of hsort hR hstack hrun hresult
    have hwhole := ih (.cons hstack' hrun') hnext h
    rwa [happend, List.append_assoc _ rawNext after] at hwhole

theorem joined?_of {length : Nat} {raw ys : List α} {runs : List (Run α)} (hraw : R [] [])
    (hruns : RunsOf R raw runs) (h : joined? below sort length runs = some ys) : R raw ys := by
  cases hruns with
  | nil =>
    obtain rfl := Option.some.inj h
    exact hraw
  | cons hrun hrest =>
    rw [joined?, Option.bind_eq_bind, Option.bind_eq_some_iff] at h
    obtain ⟨whole, hwhole, h⟩ := h
    exact (joinAll?_of hsort hR .nil hrun hrest hwhole).settle? hsort h

end Run

theorem sortRuns?_of {sort : List α → Option (List α)} {eager : Bool} {xs ys : List α}
    (hsort : ∀ xs ys, sort xs = some ys → R xs ys) (hR : Mergeable below R)
    (h : sortRuns? below sort eager xs = some ys) : R xs ys := by
  rw [sortRuns?] at h
  have hnil : R [] [] := hR.upwards .nil
  split at h
  · rw [Option.bind_eq_bind, Option.bind_eq_some_iff] at h
    obtain ⟨settled, hsettled, h⟩ := h
    exact Run.joined?_of hsort hR hnil (Run.mapM_settled?_of hsort (runs_of hR _ _ xs) hsettled) h
  · exact Run.joined?_of hsort hR hnil (runs_of hR _ _ xs) h

theorem sortRuns?_perm {sort : List α → Option (List α)} {eager : Bool} {xs ys : List α}
    (hsort : ∀ xs ys, sort xs = some ys → ys.Perm xs)
    (h : sortRuns? below sort eager xs = some ys) : ys.Perm xs :=
  sortRuns?_of (R := fun xs ys => ys.Perm xs) hsort mergeable_perm h

section Total

variable (below) {sort : List α → Option (List α)} (hsort : ∀ xs, (sort xs).isSome = true)
include hsort

namespace Run

theorem isSome_settle? (run : Run α) : (run.settle? sort).isSome := by
  rw [settle?]
  split
  · rfl
  · exact hsort _

theorem isSome_join? (room : Nat) (left right : Run α) :
    (left.join? below sort room right).isSome := by
  obtain ⟨xs, hxs⟩ := Option.isSome_iff_exists.mp (isSome_settle? hsort left)
  obtain ⟨ys, hys⟩ := Option.isSome_iff_exists.mp (isSome_settle? hsort right)
  rw [join?, hxs, hys]
  split <;> rfl

theorem isSome_collapse? (room depth : Nat) (stack : List (Run α × Nat)) (run : Run α) :
    (collapse? below sort room depth stack run).isSome := by
  induction stack generalizing run with
  | nil => rfl
  | cons entry stack ih =>
    rw [collapse?]
    split
    · obtain ⟨joined, hjoined⟩ :=
        Option.isSome_iff_exists.mp (isSome_join? below hsort room entry.1 run)
      rw [hjoined]
      exact ih joined
    · rfl

theorem isSome_joinAll? (length start : Nat) (stack : List (Run α × Nat)) (run : Run α)
    (rest : List (Run α)) : (joinAll? below sort length start stack run rest).isSome := by
  induction rest generalizing start stack run with
  | nil =>
    rw [joinAll?, Option.isSome_map]
    exact isSome_collapse? below hsort _ _ _ _
  | cons next rest ih =>
    obtain ⟨result, hresult⟩ := Option.isSome_iff_exists.mp
      (isSome_collapse? below hsort (scratchRoom length) (mergeDepth length start
        (start + run.items.length) (start + run.items.length + next.items.length)) stack run)
    simp only [joinAll?, hresult]
    exact ih _ _ _

theorem isSome_joined? (length : Nat) (runs : List (Run α)) :
    (joined? below sort length runs).isSome := by
  cases runs with
  | nil => rfl
  | cons run rest =>
    obtain ⟨whole, hwhole⟩ :=
      Option.isSome_iff_exists.mp (isSome_joinAll? below hsort length 0 [] run rest)
    rw [joined?, hwhole]
    exact isSome_settle? hsort whole

theorem isSome_mapM_settled? (runs : List (Run α)) : (runs.mapM (settled? sort)).isSome := by
  induction runs with
  | nil => rfl
  | cons run runs ih =>
    obtain ⟨items, hitems⟩ := Option.isSome_iff_exists.mp (isSome_settle? hsort run)
    obtain ⟨settled, hsettled⟩ := Option.isSome_iff_exists.mp ih
    rw [List.mapM_cons, settled?, hitems, hsettled]
    rfl

end Run

theorem isSome_sortRuns? (eager : Bool) (xs : List α) :
    (sortRuns? below sort eager xs).isSome := by
  rw [sortRuns?]
  split
  · obtain ⟨settled, hsettled⟩ := Option.isSome_iff_exists.mp
      (Run.isSome_mapM_settled? hsort (runs below (goodRun xs.length) shortLength xs))
    rw [hsettled]
    exact Run.isSome_joined? below hsort _ _
  · exact Run.isSome_joined? below hsort _ _

end Total

end Rollup
