import Rollup.Proofs.Binary64.LetterCase
import Rollup.Proofs.Keyed
import Rollup.Query

namespace Rollup

inductive Scalar.Alike : Scalar → Scalar → Prop
  | number (n : Number) : Alike (.number n) (.number n)
  | text {s t : String} (h : Text.Alike s.toList t.toList) : Alike (.text s) (.text t)

/-- The same value up to the case of letters in the strings of it. -/
inductive Json.Alike : Json → Json → Prop
  | null : Alike .null .null
  | bool (b : Bool) : Alike (.bool b) (.bool b)
  | number (n : Number) : Alike (.number n) (.number n)
  | string {s t : String} (h : Text.Alike s.toList t.toList) : Alike (.string s) (.string t)
  | array {items items' : List Json} (h : List.Forall₂ Alike items items') :
      Alike (.array items) (.array items')
  | object {members members' : List (String × Json)}
      (h : List.Forall₂ (Keyed.Entry Alike) members members') :
      Alike (.object members) (.object members')

theorem Json.Alike.scalar? {value value' : Json} (h : Json.Alike value value') :
    Option.Rel Scalar.Alike value.scalar? value'.scalar? := by
  cases h with
  | null | array | object => exact .none
  | bool b => exact .some (.number _)
  | number n => exact .some (.number n)
  | string h => exact .some (.text h)

namespace Pattern

theorem bound?_toLower (cs : List Char) : bound? (cs.map Char.toLower) = bound? cs := by
  rw [bound?, bound?, List.isEmpty_map, Binary64.parse?_toLower]

theorem parse_toLower (cs : List Char) : parse (cs.map Char.toLower) = parse cs := by
  unfold parse
  rw [Text.cutFirst?_toLower ['.', '.'] (by simp), Text.lower_toLower]
  cases Text.cutFirst? ['.', '.'] cs with
  | none => rfl
  | some parts =>
    obtain ⟨low, high⟩ := parts
    -- The ends are read as they are written, before anything is lowercased.
    simp only [Option.map_some, Prod.map_apply, bound?_toLower]

theorem finds_alike (needle : List Char) {s t : String} (h : Text.Alike s.toList t.toList) :
    finds needle s = finds needle t := by
  rw [finds, finds, h.lower]

theorem holds_alike (pattern : Pattern) {value value' : Scalar} (h : value.Alike value') :
    pattern.holds value = pattern.holds value' := by
  cases h with
  | number n => rfl
  | text h =>
    cases pattern with
    | containing needle => exact finds_alike needle h
    | between least greatest => rfl

end Pattern

namespace Term

theorem parse_toLower (cs : List Char) : parse (cs.map Char.toLower) = parse cs := by
  unfold parse
  rw [Text.cutFirst?_toLower [':'] (by simp), Text.lower_toLower]
  cases Text.cutFirst? [':'] cs with
  | none => rfl
  | some parts =>
    obtain ⟨name, pattern⟩ := parts
    simp only [Option.map_some, Prod.map_apply, List.isEmpty_map, Text.lower_toLower,
      Pattern.parse_toLower]

variable {item item' : Item}

theorem holds_alike (term : Term) (h : Keyed.Rel Scalar.Alike item.fields item'.fields) :
    term.holds item = term.holds item' := by
  cases term with
  | field name pattern =>
    have hvalue : Option.Rel Scalar.Alike (item.field? name) (item'.field? name) := h.get? name
    rw [holds, holds]
    generalize item.field? name = value, item'.field? name = value' at hvalue
    cases hvalue with
    | none => rfl
    | some hvalue => exact pattern.holds_alike hvalue
  | anywhere needle =>
    apply h.any
    rintro _ _ ⟨name, hvalue⟩
    cases hvalue with
    | number n => rfl
    | text h => exact Pattern.finds_alike needle h

end Term

namespace Query

theorem parse_alike {text text' : String} (h : Text.Alike text.toList text'.toList) :
    parse text = parse text' := by
  have hterms (cs : List Char) : (Text.words (cs.map Char.toLower)).map Term.parse =
      (Text.words cs).map Term.parse := by
    rw [Text.words_toLower, List.map_map]
    exact List.map_congr_left fun word _ => Term.parse_toLower word
  exact congrArg Query.mk (h.apply (fun cs => (Text.words cs).map Term.parse) hterms)

theorem selects_alike (query : Query) {item item' : Item}
    (h : Keyed.Rel Scalar.Alike item.fields item'.fields) :
    query.selects item = query.selects item' := by
  have hterms : (Term.holds · item) = (Term.holds · item') := by
    funext term
    exact term.holds_alike h
  rw [selects, selects, hterms]

/-- Queries that differ in the case of ASCII letters only are the same query, and a query selects
either both or none of two records that differ in nothing but the case of ASCII letters in their
strings. -/
theorem ignores_letter_case {text text' : String} {members members' : List (String × Json)}
    (htext : Text.Alike text.toList text'.toList)
    (hmembers : Keyed.Rel Json.Alike (.ofList members) (.ofList members')) :
    parse text = parse text' ∧
      (parse text).selects (.ofMembers members) = (parse text').selects (.ofMembers members') := by
  have hparse := parse_alike htext
  have hfields : Keyed.Rel Scalar.Alike (Item.ofMembers members).fields
      (Item.ofMembers members').fields := hmembers.filterMap fun _ _ h => h.scalar?
  refine ⟨hparse, ?_⟩
  rw [hparse, selects_alike _ hfields]

/-- A sigma ahead of a letter is no last letter of a word, in whichever case the other one is. -/
theorem ignores_case_around_sigma :
    let text := "TITLE:ΔΥΣs Year:-INF..1E3 İX"
    let text' := "title:ΔΥΣS yEAR:-inf..1e3 İx"
    let members := [("title", Json.string "ΟΔΥΣSEIA: İX"), ("year", .number (.int 800))]
    let members' := [("title", Json.string "ΟΔΥΣseia: İx"), ("year", .number (.int 800))]
    Text.Alike text.toList text'.toList ∧
      Keyed.Rel Json.Alike (.ofList members) (.ofList members') ∧
      (parse text).selects (.ofMembers members) = true ∧
      (parse text').selects (.ofMembers members') = true := by
  intro text text' members members'
  have htext : Text.Alike text.toList text'.toList := by decide +kernel
  have hmembers : Keyed.Rel Json.Alike (.ofList members) (.ofList members') :=
    Keyed.ofList_rel (.cons (.named "title" (.string (by decide +kernel)))
      (.cons (.named "year" (.number _)) .nil))
  have hselects : (parse text).selects (.ofMembers members) = true := by decide +kernel
  exact ⟨htext, hmembers, hselects, (ignores_letter_case htext hmembers).2 ▸ hselects⟩

end Query

end Rollup
