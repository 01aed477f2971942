/-
What a word stands for.

Numerals and integers correspond, but for the numeral `-0`. An integer is
written as a word in the shape of a numeral and read as itself; and a word
in that shape is read as an integer that is written as this word again, or,
if the word is `-0`, as `0`. This holds as long as a numeral can be read at
all, that is, up to the limit on its digits.

No word is in the shape of two patterns (`Pattern.eq_of_fits`). So a rule
that asks for one pattern after another finds the same one in any order.
-/
import RobotLang.Proofs.Pattern.Shape
import RobotLang.Proofs.Reading.AnyOrder
import RobotLang.Proofs.RoundTrip

namespace RobotLang

open Reading

/-- A numeral that is not too long is read as its integer, wherever it
stands and whatever stands behind it. -/
theorem Rule.read_numeral {w : String} (hw : Numeral.isNumeral w = true)
    (hshort : (Numeral.digits w).length ≤ Numeral.digitLimit)
    (place : Place) (rest : List Token) :
    Rule.expr.read (⟨w, place⟩ :: rest)
      = .ok (.expr (.number (Numeral.value w))) rest := by
  have hphrase : Phrase .expr id (.expr (.number (Numeral.value w))) [w] :=
    ⟨.number hw, legible_singleton.2 fun _ => hshort⟩
  exact (upTo_ok_iff (by decide) (Nat.le_refl _)).2
    ⟨[⟨w, place⟩], rfl, hphrase, fun _ _ h => by cases h⟩

/-- Numerals and integers correspond one to one but for the sign of a zero,
and no word is read two ways. A word fits a pattern exactly if it matches
the pattern's shape as a whole. The text of an integer has the shape of a
numeral and is read as that integer; a word in the shape of a numeral is
read as an integer with that word for its text, but for `-0`, which gives
`0`. No word matches two shapes, so every rule reads the same whatever the
order in which the patterns are tried. -/
theorem Pattern.words_read_one_way :
    (∀ (w : String) (p : Pattern),
      p.fits w = true ↔ w.toList ∈ p.shape.matches')
    ∧ (∀ n : Int, Numeral.IsShort n →
      (Expr.number n).text.toList ∈ number.shape.matches'
      ∧ ∀ place rest,
        Rule.expr.read (⟨(Expr.number n).text, place⟩ :: rest)
          = .ok (.expr (.number n)) rest)
    ∧ (∀ w : String, w.toList ∈ number.shape.matches' →
      (Numeral.digits w).length ≤ Numeral.digitLimit →
      ∃ n : Int,
        (∀ place rest, Rule.expr.read (⟨w, place⟩ :: rest)
          = .ok (.expr (.number n)) rest)
        ∧ (Expr.number n).text = if w = "-0" then "0" else w)
    ∧ (∀ (w : String) (p q : Pattern), w.toList ∈ p.shape.matches' →
      w.toList ∈ q.shape.matches' → p = q)
    ∧ ∀ order : List Pattern, order.Perm all →
      ∀ rule : Rule, rule.readInOrder order = rule.read := by
  refine ⟨fun w p => fits_iff_matches, ?_, ?_, ?_, ?_⟩
  · intro n hn
    have hnumeral := Numeral.isNumeral_write n
    refine ⟨fits_iff_matches.1 hnumeral, fun place rest => ?_⟩
    have hread := Rule.read_numeral hnumeral
      (legible_singleton.1 (Numeral.legible_write_iff.2 hn) hnumeral)
      place rest
    rwa [Numeral.value_write] at hread
  · intro w hw hshort
    have hnumeral : Numeral.isNumeral w = true := fits_iff_matches.2 hw
    exact ⟨Numeral.value w, Rule.read_numeral hnumeral hshort,
      Numeral.write_value hnumeral⟩
  · exact fun w p q hp hq =>
      eq_of_fits (fits_iff_matches.2 hp) (fits_iff_matches.2 hq)
  · exact fun order h rule => Rule.readInOrder_eq h rule

/-- A negative integer, the zero with a sign, a relation, and the patterns
tried the other way round. -/
theorem Pattern.words_read_one_way_minusZero :
    Numeral.IsShort (-120)
    ∧ Rule.expr.read [⟨(Expr.number (-120)).text, .start⟩]
      = .ok (.expr (.number (-120))) []
    ∧ "-0".toList ∈ number.shape.matches'
    ∧ (Numeral.digits "-0").length ≤ Numeral.digitLimit
    ∧ (∃ n : Int, Rule.expr.read [⟨"-0", .start⟩]
        = .ok (.expr (.number n)) []
      ∧ (Expr.number n).text = "0")
    ∧ "lt".toList ∈ relation.shape.matches'
    ∧ (∀ q : Pattern, "lt".toList ∈ q.shape.matches' → relation = q)
    ∧ all.reverse.Perm all
    ∧ Rule.program.readInOrder all.reverse = Rule.program.read := by
  obtain ⟨hfits, hwritten, hread, hone, horder⟩ := words_read_one_way
  have hshort : Numeral.IsShort (-120) := by decide +kernel
  have hzero : "-0".toList ∈ number.shape.matches' :=
    (hfits "-0" number).1 (by decide +kernel)
  have hdigits : (Numeral.digits "-0").length ≤ Numeral.digitLimit := by
    decide +kernel
  have hlt : "lt".toList ∈ relation.shape.matches' :=
    (hfits "lt" relation).1 (by decide +kernel)
  have hperm : all.reverse.Perm all := List.reverse_perm all
  obtain ⟨n, hn, htext⟩ := hread "-0" hzero hdigits
  exact ⟨hshort, (hwritten (-120) hshort).2 .start [], hzero, hdigits,
    ⟨n, hn .start [], htext⟩, hlt, fun q => hone "lt" relation q hlt, hperm,
    horder all.reverse hperm .program⟩

end RobotLang
