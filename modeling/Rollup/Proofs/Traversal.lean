import Mathlib.Data.List.Forall2

namespace Rollup.Traversal

variable {α β ε : Type} {f : α → Except ε β}

theorem map_eq_ok {x : Except ε α} {g : α → β} {z : β} :
    x.map g = .ok z ↔ ∃ y, x = .ok y ∧ g y = z := by
  cases x <;> simp [Except.map]

theorem map_eq_error {x : Except ε α} {g : α → β} {e : ε} :
    x.map g = .error e ↔ x = .error e := by
  cases x <;> simp [Except.map]

theorem bind_eq_ok {x : Except ε α} {g : α → Except ε β} {z : β} :
    x.bind g = .ok z ↔ ∃ y, x = .ok y ∧ g y = .ok z := by
  cases x <;> simp [Except.bind]

theorem forall₂_of_map {value? : α → Option β} {xs : List α} {ys : List β}
    (h : xs.map value? = ys.map some) : List.Forall₂ (fun x y => value? x = some y) xs ys := by
  rw [← List.forall₂_eq_eq_eq, List.forall₂_map_left_iff, List.forall₂_map_right_iff] at h
  exact h

theorem filterMap_of_map {value? : α → Option β} {xs : List α} {ys : List β}
    (h : xs.map value? = ys.map some) : xs.filterMap value? = ys := by
  calc xs.filterMap value?
    _ = (xs.map value?).filterMap id := by rw [List.filterMap_map, Function.id_comp]
    _ = ys := by rw [h, List.filterMap_map, Function.id_comp, List.filterMap_some]

theorem mapM_cons_ok {x : α} {y : β} (h : f x = .ok y) (xs : List α) :
    (x :: xs).mapM f = (xs.mapM f).map (y :: ·) := by
  rw [List.mapM_cons, h]
  cases xs.mapM f <;> rfl

theorem mapM_cons_error {x : α} {e : ε} (h : f x = .error e) (xs : List α) :
    (x :: xs).mapM f = .error e := by
  rw [List.mapM_cons, h]
  rfl

theorem mapM_eq_ok {xs : List α} {ys : List β} :
    xs.mapM f = .ok ys ↔ List.Forall₂ (fun x y => f x = .ok y) xs ys := by
  induction xs generalizing ys with
  | nil => simp [pure, Except.pure, eq_comm]
  | cons x xs ih =>
    rw [List.forall₂_cons_left_iff]
    cases hx : f x with
    | error e => simp [mapM_cons_error hx]
    | ok y =>
      rw [mapM_cons_ok hx, map_eq_ok]
      constructor
      · rintro ⟨rest, hrest, rfl⟩
        exact ⟨y, rest, rfl, ih.mp hrest, rfl⟩
      · rintro ⟨y', rest, hy, hrest, rfl⟩
        cases hy
        exact ⟨rest, ih.mpr hrest, rfl⟩

theorem mapM_succeeds_iff {xs : List α} :
    (∃ ys, xs.mapM f = .ok ys) ↔ ∀ x ∈ xs, ∃ y, f x = .ok y := by
  induction xs with
  | nil => exact ⟨fun _ x hx => (nomatch hx), fun _ => ⟨[], rfl⟩⟩
  | cons x xs ih =>
    rw [List.forall_mem_cons, ← ih]
    constructor
    · rintro ⟨ys, h⟩
      obtain ⟨y, rest, hy, hrest, rfl⟩ := List.forall₂_cons_left_iff.mp (mapM_eq_ok.mp h)
      exact ⟨⟨y, hy⟩, rest, mapM_eq_ok.mpr hrest⟩
    · rintro ⟨⟨y, hy⟩, rest, hrest⟩
      exact ⟨y :: rest, by rw [mapM_cons_ok hy, hrest]; rfl⟩

theorem mapM_eq_map {xs : List α} {g : α → β} (h : ∀ x ∈ xs, f x = .ok (g x)) :
    xs.mapM f = .ok (xs.map g) := by
  rw [mapM_eq_ok, List.forall₂_map_right_iff, List.forall₂_same]
  exact h

theorem mem_mapM {xs : List α} {ys : List β} (h : xs.mapM f = .ok ys) (y : β) :
    y ∈ ys ↔ ∃ x ∈ xs, f x = .ok y := by
  rw [mapM_eq_ok] at h
  induction h with
  | nil => simp
  | cons hxy _ ih => simp [ih, hxy, eq_comm]

theorem mapM_eq_error {xs : List α} {e : ε} :
    xs.mapM f = .error e ↔ ∃ before x after, xs = before ++ x :: after ∧
      (∀ y ∈ before, ∃ z, f y = .ok z) ∧ f x = .error e := by
  constructor
  · intro h
    induction xs with
    | nil => cases h
    | cons x xs ih =>
      cases hx : f x with
      | error e' =>
        rw [mapM_cons_error hx] at h
        cases h
        exact ⟨[], x, xs, rfl, nofun, hx⟩
      | ok y =>
        rw [mapM_cons_ok hx, map_eq_error] at h
        obtain ⟨before, x', after, rfl, hbefore, hfails⟩ := ih h
        refine ⟨x :: before, x', after, rfl, ?_, hfails⟩
        exact List.forall_mem_cons.mpr ⟨⟨y, hx⟩, hbefore⟩
  · rintro ⟨before, x, after, rfl, hbefore, hx⟩
    induction before with
    | nil => exact mapM_cons_error hx after
    | cons y before ih =>
      obtain ⟨⟨z, hz⟩, hbefore⟩ := List.forall_mem_cons.mp hbefore
      rw [List.cons_append, mapM_cons_ok hz, ih hbefore]
      rfl

/-- Where every element without a fault succeeds, the first fault decides. -/
theorem mapM_first_fault {fault? : α → Option ε} {xs : List α} {e : ε}
    (hok : ∀ x ∈ xs, fault? x = none → ∃ y, f x = .ok y)
    (hfault : ∀ x ∈ xs, ∀ e, fault? x = some e → f x = .error e)
    (h : xs.findSome? fault? = some e) : xs.mapM f = .error e := by
  obtain ⟨before, x, after, rfl, hx, hbefore⟩ := List.findSome?_eq_some_iff.mp h
  refine mapM_eq_error.mpr ⟨before, x, after, rfl, ?_, hfault x (by simp) e hx⟩
  intro y hy
  exact hok y (List.mem_append_left _ hy) (hbefore y hy)

theorem mapM_first_error {p : α → Bool} {xs : List α} {x : α} {e : ε}
    (hok : ∀ y ∈ xs, p y = false → ∃ z, f y = .ok z) (hfind : xs.find? p = some x)
    (hx : f x = .error e) : xs.mapM f = .error e := by
  obtain ⟨-, before, after, rfl, hpass⟩ := List.find?_eq_some_iff_append.mp hfind
  refine mapM_eq_error.mpr ⟨before, x, after, rfl, ?_, hx⟩
  intro y hy
  apply hok y (List.mem_append_left _ hy)
  rw [← Bool.not_eq_true', hpass y hy]

theorem error_of_mapM {xs : List α} {e : ε} (h : xs.mapM f = .error e) :
    ∃ x ∈ xs, f x = .error e := by
  obtain ⟨before, x, after, rfl, -, hx⟩ := mapM_eq_error.mp h
  exact ⟨x, by simp, hx⟩

theorem mapM_keeps {γ : Type} {xs : List α} {ys : List β} {before : α → γ} {after : β → γ}
    (h : xs.mapM f = .ok ys) (hkeep : ∀ x ∈ xs, ∀ y, f x = .ok y → after y = before x) :
    ys.map after = xs.map before := by
  rw [mapM_eq_ok] at h
  induction h with
  | nil => rfl
  | @cons x y xs ys hxy _ ih =>
    rw [List.forall_mem_cons] at hkeep
    rw [List.map_cons, List.map_cons, hkeep.1 y hxy, ih hkeep.2]

theorem mapM_paired (xs : List α) :
    (xs.mapM fun x => (f x).map (x, ·)) = (xs.mapM f).map (xs.zip ·) := by
  induction xs with
  | nil => rfl
  | cons x xs ih =>
    cases hx : f x with
    | error e => rw [mapM_cons_error (by rw [hx]; rfl), mapM_cons_error hx]; rfl
    | ok y =>
      rw [mapM_cons_ok (by rw [hx]; rfl), mapM_cons_ok hx, ih]
      cases xs.mapM f <;> rfl

end Rollup.Traversal
