import Rollup.Proofs.Binary64.Integers
import Rollup.Proofs.Text.Decimal
import Rollup.Table.Style

namespace Rollup

def Text.whole (n : Int) (places : Nat) : String :=
  toString n ++ String.ofList (Text.zeros places)

theorem Text.whole_inj {m n : Int} {places : Nat} :
    Text.whole m places = Text.whole n places ↔ m = n := by
  rw [Text.whole, Text.whole, String.append_left_inj]
  refine ⟨fun h => ?_, congrArg _⟩
  have hwrites := Text.writes_toString m
  rw [h] at hwrites
  exact hwrites.unique (Text.writes_toString n)

namespace Binary64

theorem signed_of_finite {x : Binary64} (h : x.rank < infinityRank) (magnitude : List Char) :
    x.signed magnitude = (if x.negative then ['-'] else []) ++ magnitude := by
  have hnan : x.isNaN = false := decide_eq_false (Nat.not_lt.mpr h.le)
  have hinfinite : x.isInfinite = false := beq_false_of_ne h.ne
  rw [signed, hnan, hinfinite]
  rfl

theorem atPlaces_whole {rank n : Nat} (h : units rank = n * unitsPerOne) (places : Nat) :
    atPlaces rank places = n * tenTo places := by
  have hone : 0 < unitsPerOne := by decide
  have hscaled : units rank * tenTo places = n * tenTo places * unitsPerOne := by
    rw [h, Nat.mul_right_comm]
  rw [atPlaces, hscaled, nearestEven_of_dvd hone (Nat.dvd_mul_left ..), Nat.mul_div_cancel _ hone]

/-- Behind an integer all places are zero, also those past the last that is computed. -/
theorem displayPlaces_ofInt {n : Int} (h : (ofInt n).whole? = some n) (places : Nat) :
    String.ofList ((ofInt n).displayPlaces places) = Text.whole n places := by
  have hfinite : (ofInt n).rank < infinityRank := of_decide_eq_true (whole?_eq_some_iff.mp h).1
  have hnegative : (ofInt n).negative = decide (n < 0) := rfl
  have hplaces : min places 1074 + (places - 1074) = places := by omega
  rw [displayPlaces, signed_of_finite hfinite, atPlaces_whole (units_of_whole? h),
    Text.withPlaces_mul_tenTo, List.append_assoc, Text.zeros_append _ _ (by omega), hplaces,
    hnegative, Text.whole, ← String.toList_inj, String.toList_ofList, String.toList_append,
    String.toList_ofList, Text.toList_toString, List.append_assoc]
  simp only [decide_eq_true_eq]

end Binary64

theorem Number.natAbs_toInt_le (n : Int64) : n.toInt.natAbs ≤ 2 ^ 63 := by
  have hle := n.le_toInt
  have hlt := n.toInt_lt
  omega

theorem Number.displayPlaces_int (n : Int64) :
    ∃ r, (Binary64.ofInt n.toInt).whole? = some r ∧
      ∀ places, (Number.int n).displayPlaces places = Text.whole r places := by
  obtain ⟨r, hr⟩ := Binary64.exists_whole?_ofInt (Number.natAbs_toInt_le n)
  have hsame : Binary64.ofInt n.toInt = .ofInt r := by
    obtain heq | ⟨-, hzero⟩ := Binary64.eq_ofInt_of_whole? hr
    · exact heq
    · exact absurd hzero (Binary64.ofInt_ne_zero _)
  refine ⟨r, hr, fun places => ?_⟩
  rw [hsame] at hr
  rw [Number.displayPlaces, Number.toReal, hsame]
  exact Binary64.displayPlaces_ofInt hr places

namespace Style

/-- In a column with decimal places an integer is shown as the integer that it is rounded to, with
all places zero. This is the integer itself exactly when it has no more than 53 significant bits. -/
theorem cell_whole {style : Style} {column : String} {places : Nat}
    (hplaces : (style.places.get? column).join = some places) (hlimit : places ≤ layoutLimit)
    (n : Int64) :
    ∃ r, (Binary64.ofInt n.toInt).whole? = some r ∧
      style.cell column (.int n) = .ok (Text.whole r places) ∧
      (style.cell column (.int n) = .ok (Text.whole n.toInt places) ↔
        Binary64.Representable n.toInt) ∧
      (n.toInt.natAbs ≤ 2 ^ 53 → Binary64.Representable n.toInt) := by
  obtain ⟨r, hr, hdisplay⟩ := Number.displayPlaces_int n
  have hcell : style.cell column (.int n) = .ok (Text.whole r places) := by
    rw [cell, hplaces, ← hdisplay places]
    exact if_pos hlimit
  refine ⟨r, hr, hcell, ?_, Binary64.representable_of_le⟩
  rw [hcell, Except.ok.injEq, Text.whole_inj,
    ← Binary64.whole?_ofInt_iff (Number.natAbs_toInt_le n), hr, Option.some.injEq]

/-- A power of two has one significant bit and keeps all its digits. -/
theorem cell_whole_power :
    let style := plain.withPlaces "sum|size" (some 2)
    Binary64.Representable (-1152921504606846976) ∧
      style.cell "sum|size" (.int (-1152921504606846976)) = .ok "-1152921504606846976.00" := by
  intro style
  have hplaces : (style.places.get? "sum|size").join = some 2 := by decide +kernel
  have hrepresentable : Binary64.Representable (-1152921504606846976) :=
    ⟨1, 60, by decide, by decide⟩
  obtain ⟨_, -, -, hiff, -⟩ := cell_whole hplaces (by decide) (-1152921504606846976)
  exact ⟨hrepresentable, hiff.mpr hrepresentable⟩

/-- 2^53 + 1 is rounded to 2^53 and shown as that. -/
theorem cell_not_whole :
    ∃ (n : Int64) (places : Nat), n = 9007199254740993 ∧ places = 0 ∧ places ≤ layoutLimit ∧
      fixed places (.int n) = .ok "9007199254740992" ∧
      fixed places (.int n) ≠ .ok (Text.whole n.toInt places) :=
  ⟨_, _, rfl, rfl, by decide, by decide +kernel, by decide +kernel⟩

end Style

end Rollup
