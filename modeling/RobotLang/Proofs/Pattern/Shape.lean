/-
Patterns as regular expressions.

The shape of a pattern is the regular expression that its words match, with
all their characters. For nine of the patterns it lists the words, spelled
out; for a numeral it is an optional minus sign, and then zero or digits of
which the first one is not zero. A word fits a pattern exactly if it matches
the shape (`Pattern.fits_iff_matches`).

What a shape matches is found from its parts: a text matches only itself, a
choice of characters matches one of them, and a repeated choice matches any
string over them. So a word in the shape of a numeral is either zero or has
a first digit and further ones, with or without a sign in front; and the
sign is no digit, so it can be told from them.
-/
import Mathlib.Computability.RegularExpressions
import RobotLang.Proofs.Building
import RobotLang.Proofs.Pattern

namespace RobotLang

open RegularExpression (char matches'_add matches'_char matches'_mul
  matches'_star)

-- ============================================================== shapes

namespace Shape

/-- The text itself, character by character. -/
def text (w : String) : RegularExpression Char := (w.toList.map char).prod

/-- One of the texts. -/
def oneOf (ws : List String) : RegularExpression Char := (ws.map text).sum

/-- One of the characters. -/
def anyOf (ds : String) : RegularExpression Char := (ds.toList.map char).sum

variable {cs : List Char}

theorem matches_sum {rs : List (RegularExpression Char)} :
    cs ∈ rs.sum.matches' ↔ ∃ r ∈ rs, cs ∈ r.matches' := by
  induction rs with
  | nil => exact iff_of_false id fun ⟨r, hr, _⟩ => by cases hr
  | cons r rs ih =>
      rw [List.sum_cons, matches'_add, Language.mem_add, ih]
      simp

theorem matches_prod_char {ds : List Char} :
    cs ∈ (ds.map char).prod.matches' ↔ cs = ds := by
  induction ds generalizing cs with
  | nil => exact Language.mem_one cs
  | cons d ds ih =>
      rw [List.map_cons, List.prod_cons, matches'_mul, Language.mem_mul]
      constructor
      · intro h
        obtain ⟨u, hu, v, hv, rfl⟩ := h
        obtain rfl : u = [d] := hu
        rw [ih.1 hv, List.singleton_append]
      · rintro rfl
        exact ⟨[d], rfl, ds, ih.2 rfl, rfl⟩

theorem matches_text {w v : String} :
    w.toList ∈ (text v).matches' ↔ w = v :=
  matches_prod_char.trans String.toList_inj

theorem matches_oneOf {w : String} {ws : List String} :
    w.toList ∈ (oneOf ws).matches' ↔ w ∈ ws := by
  rw [oneOf, matches_sum]
  constructor
  · intro h
    obtain ⟨r, hr, hw⟩ := h
    obtain ⟨v, hv, rfl⟩ := List.mem_map.1 hr
    rwa [matches_text.1 hw]
  · exact fun h => ⟨text w, List.mem_map_of_mem h, matches_text.2 rfl⟩

theorem matches_anyOf {ds : String} :
    cs ∈ (anyOf ds).matches' ↔ ∃ d ∈ ds.toList, cs = [d] := by
  rw [anyOf, matches_sum]
  constructor
  · intro h
    obtain ⟨r, hr, hcs⟩ := h
    obtain ⟨d, hd, rfl⟩ := List.mem_map.1 hr
    exact ⟨d, hd, hcs⟩
  · rintro ⟨d, hd, rfl⟩
    exact ⟨char d, List.mem_map_of_mem hd, rfl⟩

/-- A choice in front takes the first character. -/
theorem matches_anyOf_mul {ds : String} {r : RegularExpression Char} :
    cs ∈ (anyOf ds * r).matches'
      ↔ ∃ d ∈ ds.toList, ∃ v ∈ r.matches', cs = d :: v := by
  rw [matches'_mul, Language.mem_mul]
  constructor
  · rintro ⟨u, hu, v, hv, rfl⟩
    obtain ⟨d, hd, rfl⟩ := matches_anyOf.1 hu
    exact ⟨d, hd, v, hv, List.singleton_append⟩
  · rintro ⟨d, hd, v, hv, rfl⟩
    exact ⟨[d], matches_anyOf.2 ⟨d, hd, rfl⟩, v, hv, rfl⟩

/-- An optional character in front is there or not. -/
theorem matches_option_mul {d : Char} {r : RegularExpression Char} :
    cs ∈ ((1 + char d) * r).matches'
      ↔ cs ∈ r.matches' ∨ ∃ v ∈ r.matches', cs = d :: v := by
  rw [matches'_mul, matches'_add, Language.mem_mul]
  constructor
  · rintro ⟨u, hu | hu, v, hv, rfl⟩
    · obtain rfl : u = [] := hu
      exact .inl hv
    · obtain rfl : u = [d] := hu
      exact .inr ⟨v, hv, rfl⟩
  · rintro (h | ⟨v, hv, rfl⟩)
    · exact ⟨[], .inl rfl, cs, h, rfl⟩
    · exact ⟨[d], .inr rfl, v, hv, rfl⟩

/-- A repeated choice matches any string over the characters. -/
theorem matches_star_anyOf {ds : String} :
    cs ∈ (anyOf ds).star.matches' ↔ ∀ c ∈ cs, c ∈ ds.toList := by
  rw [matches'_star, Language.mem_kstar]
  constructor
  · rintro ⟨parts, rfl, hparts⟩ c hc
    obtain ⟨part, hpart, hc⟩ := List.mem_flatten.1 hc
    obtain ⟨d, hd, rfl⟩ := matches_anyOf.1 (hparts part hpart)
    rwa [List.mem_singleton.1 hc]
  · intro h
    refine ⟨cs.map fun c => [c], ?_, fun part hpart => ?_⟩
    · rw [← List.flatMap_def, List.flatMap_singleton']
    · obtain ⟨c, hc, rfl⟩ := List.mem_map.1 hpart
      exact matches_anyOf.2 ⟨c, h c hc, rfl⟩

end Shape

-- ============================================================ numerals

namespace Numeral

open Shape

/-- Zero, or digits of which the first one is not zero. -/
def unsignedShape : RegularExpression Char :=
  char '0' + anyOf "123456789" * (anyOf "0123456789").star

/-- A numeral, with or without a minus sign. -/
def shape : RegularExpression Char := (1 + char '-') * unsignedShape

/-- The text of the ten digits has every digit. -/
theorem isDigit_iff_mem {c : Char} :
    c.isDigit = true ↔ c ∈ "0123456789".toList := by
  rw [show "0123456789".toList = (List.range 10).map Nat.digitChar from rfl,
    List.mem_map]
  constructor
  · intro hc
    have hlt := digit_lt_ten hc
    have hdigit := toDigits_digit hc
    rw [Nat.toDigits_of_lt_base hlt] at hdigit
    exact ⟨_, List.mem_range.2 hlt, List.singleton_inj.1 hdigit⟩
  · rintro ⟨n, hn, rfl⟩
    rw [Nat.isDigit_digitChar, decide_eq_true (List.mem_range.1 hn)]

theorem mem_nonzero_iff {c : Char} :
    c ∈ "123456789".toList ↔ c.isDigit = true ∧ c ≠ '0' := by
  have hzero : '0' ∉ "123456789".toList := by decide
  rw [isDigit_iff_mem,
    show "0123456789".toList = '0' :: "123456789".toList from rfl,
    List.mem_cons]
  constructor
  · exact fun h => ⟨.inr h, fun hc => hzero (hc ▸ h)⟩
  · exact fun h => h.1.resolve_left h.2

/-- Zero is the only unsigned numeral that begins with a zero. -/
theorem matches_unsignedShape {cs : List Char} :
    cs ∈ unsignedShape.matches' ↔ isUnsigned cs = true := by
  rw [unsignedShape, matches'_add, Language.mem_add, matches_anyOf_mul]
  cases cs with
  | nil =>
      refine iff_of_false (fun h => ?_) Bool.false_ne_true
      rcases h with h | ⟨d, -, v, -, h⟩
      · cases h
      · cases h
  | cons c cs =>
      have hzero : c :: cs ∈ (char '0').matches' ↔ c = '0' ∧ cs = [] :=
        List.cons_eq_cons
      have hnonzero : (∃ d ∈ "123456789".toList,
            ∃ v ∈ (anyOf "0123456789").star.matches', c :: cs = d :: v)
          ↔ (c.isDigit = true ∧ c ≠ '0') ∧ cs.all Char.isDigit = true := by
        rw [← mem_nonzero_iff, List.all_eq_true]
        simp only [isDigit_iff_mem, ← matches_star_anyOf]
        constructor
        · rintro ⟨d, hd, v, hv, heq⟩
          cases heq
          exact ⟨hd, hv⟩
        · exact fun h => ⟨c, h.1, cs, h.2, rfl⟩
      rw [hzero, hnonzero, isUnsigned]
      by_cases hc : c = '0'
      · simp [hc]
      · simp [hc]

/-- A numeral is a word in the shape of one. The sign is no digit, so a word
with a sign is none without it. -/
theorem matches_shape {w : String} :
    w.toList ∈ shape.matches' ↔ isNumeral w = true := by
  rw [shape, matches_option_mul, matches_unsignedShape, isNumeral]
  constructor
  · rintro (h | ⟨v, hv, h⟩)
    · split
      · next cs hcs =>
        rw [hcs] at h
        cases h
      · exact h
    · rw [h]
      exact matches_unsignedShape.1 hv
  · intro h
    split at h
    · next cs hcs => exact .inr ⟨cs, matches_unsignedShape.2 h, hcs⟩
    · exact .inl h

example : ∀ w ∈ ["01", "-", "3a", "+4", "1.5"],
    w.toList ∉ shape.matches' := by decide +kernel

end Numeral

-- ============================================================ patterns

namespace Pattern

open Shape

/-- What the words that fit look like. -/
def shape : Pattern → RegularExpression Char
  | action => oneOf Building.actions
  | connective => oneOf Building.connectives
  | elseWord => text "else"
  | ifWord => text "if"
  | loopWord => text "loop"
  | number => Numeral.shape
  | operation => oneOf Building.operations
  | relation => oneOf Building.relations
  | sensor => oneOf Building.sensors
  | whileWord => text "while"

/-- A word fits a pattern exactly if it matches the shape. -/
theorem fits_iff_matches {w : String} {p : Pattern} :
    p.fits w = true ↔ w.toList ∈ p.shape.matches' := by
  have hlisted {α : Type} {ws : List String} {meaning : String → Option α}
      {word : α → String} (h : Building.Lists ws meaning word) :
      (meaning w).isSome = true ↔ w.toList ∈ (oneOf ws).matches' :=
    h.mem_iff.symm.trans matches_oneOf.symm
  have hspelled {v : String} :
      decide (w = v) = true ↔ w.toList ∈ (text v).matches' :=
    decide_eq_true_iff.trans matches_text.symm
  cases p with
  | action => exact hlisted Building.lists_actions
  | connective => exact hlisted Building.lists_connectives
  | operation => exact hlisted Building.lists_operations
  | relation => exact hlisted Building.lists_relations
  | sensor => exact hlisted Building.lists_sensors
  | elseWord | ifWord | loopWord | whileWord => exact hspelled
  | number => exact Numeral.matches_shape.symm

end Pattern

end RobotLang
