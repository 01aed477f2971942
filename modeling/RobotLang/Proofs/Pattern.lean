/-
No word is read two ways.

Nine of the ten patterns stand for finitely many words. That none of these
words fits another pattern, be it the numerals, is checked word by word;
that no numeral fits one of the nine follows. So a word fits at most one
pattern (`eq_of_fits`), and the word of a meaning fits the pattern of that
meaning and no other. A punctuation mark fits none.
-/
import RobotLang.Pattern
import RobotLang.Proofs.Numeral
import RobotLang.Token

namespace RobotLang

/-- The word of a listed meaning has a meaning only if it is listed. -/
theorem mem_map_of_meaningOf? {α : Type} {meanings : List α}
    {word : α → String} {w : String}
    (h : (meaningOf? meanings word w).isSome = true) :
    w ∈ meanings.map word := by
  obtain ⟨a, ha⟩ := Option.isSome_iff_exists.1 h
  rw [← word_of_meaningOf? ha]
  exact List.mem_map_of_mem (List.mem_of_find?_eq_some ha)

namespace Pattern

theorem mem_all (p : Pattern) : p ∈ all := by cases p <;> decide

/-- The words that fit the pattern, if they are finitely many. -/
def words : Pattern → List String
  | action => Action.all.map Action.word
  | connective => Connective.all.map Connective.word
  | elseWord => ["else"]
  | ifWord => ["if"]
  | loopWord => ["loop"]
  | number => []
  | operation => Operation.all.map Operation.word
  | relation => Relation.all.map Relation.word
  | sensor => Sensor.all.map Sensor.word
  | whileWord => ["while"]

theorem mem_words_of_fits {w : String} {p : Pattern} (hp : p ≠ number)
    (h : fits w p = true) : w ∈ p.words := by
  cases p with
  | number => exact absurd rfl hp
  | action | connective | operation | relation | sensor =>
      exact mem_map_of_meaningOf? h
  | elseWord | ifWord | loopWord | whileWord =>
      exact List.mem_singleton.2 (of_decide_eq_true h)

/-- Of the listed words of a pattern none fits another one. -/
theorem eq_of_mem_words_of_fits :
    ∀ p ∈ all, ∀ w ∈ p.words, ∀ q ∈ all, fits w q = true → p = q := by
  decide +kernel

/-- A word fits at most one pattern. -/
theorem eq_of_fits {w : String} {p q : Pattern} (hp : fits w p = true)
    (hq : fits w q = true) : p = q := by
  by_cases h : p = number
  · by_cases h' : q = number
    · rw [h, h']
    · have hmem := mem_words_of_fits h' hq
      exact (eq_of_mem_words_of_fits q (mem_all q) w hmem p (mem_all p)
        hp).symm
  · have hmem := mem_words_of_fits h hp
    exact eq_of_mem_words_of_fits p (mem_all p) w hmem q (mem_all q) hq

/-- A word that fits a pattern fits the others not. -/
theorem fits_eq {w : String} {p : Pattern} (hp : fits w p = true)
    (q : Pattern) : fits w q = decide (q = p) := by
  by_cases h : q = p
  · rw [h, hp, decide_eq_true rfl]
  · rw [decide_eq_false h, Bool.eq_false_iff]
    exact fun hq => h (eq_of_fits hq hp)

-- ================================================ words of a meaning

@[simp] theorem fits_action (a : Action) (q : Pattern) :
    fits a.word q = decide (q = action) :=
  fits_eq (by rw [fits, Action.ofWord?_word]; rfl) q

@[simp] theorem fits_connective (c : Connective) (q : Pattern) :
    fits c.word q = decide (q = connective) :=
  fits_eq (by rw [fits, Connective.ofWord?_word]; rfl) q

@[simp] theorem fits_operation (o : Operation) (q : Pattern) :
    fits o.word q = decide (q = operation) :=
  fits_eq (by rw [fits, Operation.ofWord?_word]; rfl) q

@[simp] theorem fits_relation (r : Relation) (q : Pattern) :
    fits r.word q = decide (q = relation) :=
  fits_eq (by rw [fits, Relation.ofWord?_word]; rfl) q

@[simp] theorem fits_sensor (s : Sensor) (q : Pattern) :
    fits s.word q = decide (q = sensor) :=
  fits_eq (by rw [fits, Sensor.ofWord?_word]; rfl) q

@[simp] theorem fits_else (q : Pattern) :
    fits "else" q = decide (q = elseWord) := fits_eq rfl q

@[simp] theorem fits_if (q : Pattern) :
    fits "if" q = decide (q = ifWord) := fits_eq rfl q

@[simp] theorem fits_loop (q : Pattern) :
    fits "loop" q = decide (q = loopWord) := fits_eq rfl q

@[simp] theorem fits_while (q : Pattern) :
    fits "while" q = decide (q = whileWord) := fits_eq rfl q

theorem fits_numeral {w : String} (hw : Numeral.isNumeral w = true)
    (q : Pattern) : fits w q = decide (q = number) :=
  fits_eq (p := number) hw q

@[simp] theorem fits_mark (m : Mark) (q : Pattern) :
    fits m.word q = false := by
  cases m <;> cases q <;> decide +kernel

end Pattern

end RobotLang
