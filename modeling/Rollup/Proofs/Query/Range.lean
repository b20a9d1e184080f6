import Rollup.Proofs.Binary64.Integers
import Rollup.Proofs.Query.Ends

namespace Rollup

open Text (Writes)

theorem Text.isBlank_digit {c : Char} (h : isDigit c = true) : isBlank c = false := by
  obtain ⟨hfirst, hlast⟩ := Bool.and_eq_true_iff.mp h
  have hfirst : 48 ≤ c.toNat := of_decide_eq_true hfirst
  have hlast : c.toNat ≤ 57 := of_decide_eq_true hlast
  simp [isBlank, blankRanges]
  omega

theorem Text.Writes.unbroken {cs : List Char} {n : Int} (h : Writes cs n) :
    '.' ∉ cs ∧ ∀ c ∈ cs, isBlank c = false := by
  refine ⟨h.point_not_mem, fun c hc => ?_⟩
  obtain hdigit | rfl | rfl := h.plain.2 _ hc
  · exact isBlank_digit hdigit
  · decide
  · decide

namespace Pattern

variable {low high : List Char} {least greatest : Option Binary64}

theorem bound?_of_writes {cs : List Char} {n : Int} (h : Writes cs n) :
    ∃ x, bound? cs = some (some x) ∧ ∀ y,
      x.atMost y = (Binary64.ofInt n).atMost y ∧ y.atMost x = y.atMost (.ofInt n) := by
  obtain ⟨x, hx, hreads⟩ := Binary64.parse?_of_writes h
  have hne : cs.isEmpty = false := by simpa using h.plain.1
  refine ⟨x, ?_, Binary64.atMost_of_reads hreads⟩
  rw [bound?, hne, hx]
  rfl

theorem parse_range (hpoint : '.' ∉ low) (hlow : bound? low = some least)
    (hhigh : bound? high = some greatest) (hbound : least ≠ none ∨ greatest ≠ none) :
    parse (low ++ ['.', '.'] ++ high) = .between least greatest := by
  apply parse_eq_between_iff.mpr
  exact .intro (bound?_eq_some_iff.mp hlow) (bound?_eq_some_iff.mp hhigh)
    (fun hlast => hpoint (List.mem_of_getLast? hlast)) hbound

theorem holds_between (least greatest : Option Binary64) (number : Number) :
    (between least greatest).holds (.number number) = true ↔
      (∀ x ∈ least, x.atMost number.toReal = true) ∧
        ∀ x ∈ greatest, number.toReal.atMost x = true := by
  cases least <;> cases greatest <;> simp [holds, Scalar.number?]

end Pattern

namespace Query

variable {name : String} {item : Item} {n lo hi : Int64} {low high : List Char}

theorem selects_range_iff {pattern : List Char} {least greatest : Option Binary64} {number : Number}
    (hname : Askable name) (hvalue : item.field? name = some (.number number))
    (hpattern : ∀ c ∈ pattern, Text.isBlank c = false)
    (hparse : Pattern.parse pattern = .between least greatest) :
    (parse (name ++ ":" ++ String.ofList pattern)).selects item = true ↔
      (∀ x ∈ least, x.atMost number.toReal = true) ∧
        ∀ x ∈ greatest, number.toReal.atMost x = true := by
  rw [parse_field hname hpattern, selects, List.all_cons, List.all_nil, Bool.and_true, Term.holds,
    hvalue, Option.map_some, Option.getD_some, hparse, Pattern.holds_between]

/-- A range takes in the integers from its lower end to its upper end. Of the others it takes in
those that are rounded to the same number as the end they are beyond, so none if that end or the
integer itself is below 2^53. -/
theorem selects_range (hname : Askable name)
    (hvalue : item.field? name = some (.number (.int n))) (hlow : Writes low lo.toInt)
    (hhigh : Writes high hi.toInt) :
    let asks (pattern : List Char) := (parse (name ++ ":" ++ String.ofList pattern)).selects item
    let least := lo ≤ n ∨ Binary64.ofInt lo.toInt = .ofInt n.toInt
    let greatest := n ≤ hi ∨ Binary64.ofInt n.toInt = .ofInt hi.toInt
    (asks (low ++ ['.', '.'] ++ high) = true ↔ least ∧ greatest) ∧
      (asks (low ++ ['.', '.']) = true ↔ least) ∧
      (asks (['.', '.'] ++ high) = true ↔ greatest) ∧
      ∀ b : Int64, b.toInt.natAbs < 2 ^ 53 ∨ n.toInt.natAbs < 2 ^ 53 →
        Binary64.ofInt b.toInt = .ofInt n.toInt → b = n := by
  intro asks least greatest
  obtain ⟨x, hx, hreadsLow⟩ := Pattern.bound?_of_writes hlow
  obtain ⟨y, hy, hreadsHigh⟩ := Pattern.bound?_of_writes hhigh
  obtain ⟨hpoint, hblankLow⟩ := hlow.unbroken
  obtain ⟨-, hblankHigh⟩ := hhigh.unbroken
  have hleast : x.atMost (.ofInt n.toInt) = true ↔ least := by
    rw [(hreadsLow _).1, Binary64.atMost_ofInt_iff, ← Int64.le_iff_toInt_le]
  have hgreatest : (Binary64.ofInt n.toInt).atMost y = true ↔ greatest := by
    rw [(hreadsHigh _).2, Binary64.atMost_ofInt_iff, ← Int64.le_iff_toInt_le]
  have hopen : Pattern.bound? [] = some none := rfl
  have hdots : ∀ c ∈ ['.', '.'], Text.isBlank c = false := Text.forall_not_isBlank (by decide)
  refine ⟨?_, ?_, ?_, ?_⟩
  · have hparse := Pattern.parse_range hpoint hx hy (by simp)
    rw [selects_range_iff hname hvalue ?_ hparse]
    · simp [Number.toReal, hleast, hgreatest]
    · rw [List.forall_mem_append, List.forall_mem_append]
      exact ⟨⟨hblankLow, hdots⟩, hblankHigh⟩
  · have hparse := Pattern.parse_range hpoint hx hopen (by simp)
    rw [List.append_nil] at hparse
    rw [selects_range_iff hname hvalue ?_ hparse]
    · simp [Number.toReal, hleast]
    · exact List.forall_mem_append.mpr ⟨hblankLow, hdots⟩
  · have hparse := Pattern.parse_range List.not_mem_nil hopen hy (by simp)
    rw [List.nil_append] at hparse
    rw [selects_range_iff hname hvalue ?_ hparse]
    · simp [Number.toReal, hgreatest]
    · exact List.forall_mem_append.mpr ⟨hdots, hblankHigh⟩
  · intro b hsmall hround
    obtain hb | hn := hsmall
    · exact Int64.toInt_inj.mp (Binary64.eq_of_ofInt_eq hb hround)
    · exact Int64.toInt_inj.mp (Binary64.eq_of_ofInt_eq hn hround.symm).symm

theorem askable_year : Askable "year" :=
  ⟨by decide, by decide +kernel, by decide, Text.forall_not_isBlank (by decide +kernel)⟩

theorem selects_range_year :
    let song : Item := .ofMembers [("year", .number (.int 1997))]
    Writes ['+', '0', '1', '9', '9', '7'] 1997 ∧
      (parse "year:-9223372036854775808..+01997").selects song = true ∧
      (parse "year:-9223372036854775808..").selects song = true ∧
      (parse "year:..+01997").selects song = true ∧
      (parse "year:1998..+01997").selects song = false := by
  intro song
  have hvalue : song.field? "year" = some (.number (.int 1997)) := by decide +kernel
  have hhigh : Writes ['+', '0', '1', '9', '9', '7'] (1997 : Int64).toInt :=
    .plus (by decide) (List.all_eq_true.mp (by decide))
  have hall := selects_range askable_year hvalue (Text.writes_toString Int64.minValue.toInt) hhigh
  have hnone := selects_range askable_year hvalue (Text.writes_toString (1998 : Int64).toInt) hhigh
  refine ⟨hhigh, hall.1.mpr ?_, hall.2.1.mpr ?_, hall.2.2.1.mpr ?_, ?_⟩
  · exact ⟨.inl (by decide), .inl (by decide)⟩
  · exact .inl (by decide)
  · exact .inl (by decide)
  · refine Bool.eq_false_iff.mpr fun hselects => ?_
    obtain ⟨hle | hround, -⟩ := hnone.1.mp hselects
    · exact absurd hle (by decide)
    · exact absurd (hnone.2.2.2 1998 (.inr (by decide)) hround) (by decide)

/-- 2^53 + 1 is rounded to 2^53, which is then not below it. -/
theorem selects_below_range :
    ∃ (item : Item) (n lo : Int64), n = 9007199254740992 ∧ lo = 9007199254740993 ∧
      Askable "size" ∧ item.field? "size" = some (.number (.int n)) ∧
      (parse ("size:" ++ toString lo.toInt ++ "..")).selects item = true ∧ ¬ lo ≤ n :=
  ⟨.ofMembers [("size", .number (.int 9007199254740992))], _, _, rfl, rfl,
    ⟨by decide, by decide +kernel, by decide, Text.forall_not_isBlank (by decide +kernel)⟩,
    by decide +kernel, by decide +kernel, by decide⟩

end Query

end Rollup
