import Rollup.Query
import Rollup.Proofs.Text.Context
import Rollup.Proofs.Text.Words

namespace Rollup

theorem Pattern.parse_eq_containing {text : List Char}
    (h : ∀ least greatest, parse text ≠ .between least greatest) :
    parse text = .containing (Text.lower text) := by
  cases hparse : parse text with
  | between least greatest => exact absurd hparse (h least greatest)
  | containing needle =>
    unfold parse at hparse
    split at hparse
    · split at hparse
      · exact hparse.symm
      · cases hparse
      · exact hparse.symm
    · exact hparse.symm

namespace Query

/-- A field name that a term can ask for as it is written. -/
structure Askable (name : String) : Prop where
  ne_empty : name ≠ ""
  lowered : Text.lowercase name = name
  no_colon : ':' ∉ name.toList
  no_blank : ∀ c ∈ name.toList, Text.isBlank c = false

variable {name : String} {text : List Char}

theorem parse_field (hname : Askable name) (htext : ∀ c ∈ text, Text.isBlank c = false) :
    parse (name ++ ":" ++ String.ofList text) = ⟨[.field name (.parse text)]⟩ := by
  have hchars : (name ++ ":" ++ String.ofList text).toList = name.toList ++ ':' :: text := by
    simp
  have hblank : ∀ c ∈ name.toList ++ ':' :: text, Text.isBlank c = false := by
    intro c hc
    rw [List.mem_append, List.mem_cons] at hc
    obtain hc | rfl | hc := hc
    · exact hname.no_blank c hc
    · decide
    · exact htext c hc
  have hne : name.toList.isEmpty = false := by simpa using hname.ne_empty
  have hlowered : String.ofList (Text.lower name.toList) = name := hname.lowered
  rw [parse, hchars, Text.words_eq_singleton (by simp) hblank, List.map_singleton, Term.parse,
    Text.cutFirst?_append hname.no_colon]
  simp only [hne, hlowered, Bool.false_eq_true, if_false]

theorem selects_text_iff {item : Item} {value : String} (hname : Askable name)
    (hvalue : item.field? name = some (.text value)) (htext : ∀ c ∈ text, Text.isBlank c = false)
    (hrange : ∀ least greatest, Pattern.parse text ≠ .between least greatest) :
    (parse (name ++ ":" ++ String.ofList text)).selects item = true ↔
      Text.lower text <:+: Text.lower value.toList := by
  rw [parse_field hname htext, selects, List.all_cons, List.all_nil, Bool.and_true, Term.holds,
    hvalue, Option.map_some, Option.getD_some, Pattern.parse_eq_containing hrange]
  exact Text.occursIn_iff_infix

/-- A term that asks a text field for a part of its text succeeds exactly when the lowercase form of
the part occurs in that of the text. It does so if no capital sigma of the part changes its form
with the context. -/
theorem selects_part {item : Item} {value : String} {before after : List Char}
    (hname : Askable name) (hvalue : item.field? name = some (.text value))
    (hpart : value.toList = before ++ text ++ after)
    (htext : ∀ c ∈ text, Text.isBlank c = false)
    (hrange : ∀ least greatest, Pattern.parse text ≠ .between least greatest) :
    ((parse (name ++ ":" ++ String.ofList text)).selects item = true ↔
      Text.lower text <:+: Text.lower value.toList) ∧
    (Text.SigmasKept before.reverse text after →
      (parse (name ++ ":" ++ String.ofList text)).selects item = true) := by
  have hiff := selects_text_iff hname hvalue htext hrange
  refine ⟨hiff, fun hkept => hiff.mpr ?_⟩
  rw [hpart, ← Text.lowerWithin_eq_lower_iff.mpr hkept]
  exact Text.lowerWithin_infix before text after

theorem askable_title : Askable "title" :=
  ⟨by decide, by decide +kernel, by decide, Text.forall_not_isBlank (by decide +kernel)⟩

theorem selects_inner_part :
    Text.SigmasKept ['Μ'] ['Ο', 'Υ', 'Σ', 'Ι'] ['Κ', 'Η'] ∧
      (parse "title:ΟΥΣΙ").selects (.ofMembers [("title", .string "ΜΟΥΣΙΚΗ")]) = true := by
  have hvalue : (Item.ofMembers [("title", .string "ΜΟΥΣΙΚΗ")]).field? "title" =
      some (.text "ΜΟΥΣΙΚΗ") := by decide +kernel
  have hpart : "ΜΟΥΣΙΚΗ".toList = ['Μ'] ++ ['Ο', 'Υ', 'Σ', 'Ι'] ++ ['Κ', 'Η'] := by decide
  have hparse : Pattern.parse ['Ο', 'Υ', 'Σ', 'Ι'] = .containing ['ο', 'υ', 'σ', 'ι'] := by
    decide +kernel
  have hkept : Text.SigmasKept ['Μ'] ['Ο', 'Υ', 'Σ', 'Ι'] ['Κ', 'Η'] := by decide +kernel
  have hblank := @Text.forall_not_isBlank ['Ο', 'Υ', 'Σ', 'Ι'] (by decide +kernel)
  refine ⟨hkept, (selects_part askable_title hvalue hpart hblank ?_).2 hkept⟩
  rw [hparse]
  exact nofun

/-- At the end of a part a sigma is taken for the last of a word, which it is not in the text. -/
theorem part_not_selected :
    Askable "title" ∧
      (Item.ofMembers [("title", .string "ΜΟΥΣΙΚΗ")]).field? "title" = some (.text "ΜΟΥΣΙΚΗ") ∧
      "ΜΟΥΣΙΚΗ".toList = [] ++ ['Μ', 'Ο', 'Υ', 'Σ'] ++ ['Ι', 'Κ', 'Η'] ∧
      (∀ c ∈ ['Μ', 'Ο', 'Υ', 'Σ'], Text.isBlank c = false) ∧
      Pattern.parse ['Μ', 'Ο', 'Υ', 'Σ'] = .containing ['μ', 'ο', 'υ', 'ς'] ∧
      (parse ("title" ++ ":" ++ String.ofList ['Μ', 'Ο', 'Υ', 'Σ'])).selects
        (.ofMembers [("title", .string "ΜΟΥΣΙΚΗ")]) = false :=
  ⟨askable_title, by decide +kernel, by decide, Text.forall_not_isBlank (by decide +kernel),
    by decide +kernel, by decide +kernel⟩

end Query

end Rollup
