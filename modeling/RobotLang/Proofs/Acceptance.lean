/-
The rules accept exactly the grammar.

Stated at a cursor, for any tokens and any place among them: a rule gives
a tree and stops at a place exactly if the words in between are legible
and derive the tree, and the tree is not a choice without `else` in front
of an `else`. A program takes all the tokens that are left, and there has
to be one. Since words derive at most one tree, the rules miss no tree and
choose none.
-/
import RobotLang.Proofs.Cursor
import RobotLang.Proofs.Grammar.Unique
import RobotLang.Proofs.Reading.Exact

namespace RobotLang

open Reading

/-- The next word at a place. -/
theorem nextWord_drop (tokens : List Token) (q : Nat) :
    nextWord (tokens.drop q) = tokens[q]?.map Token.value := by
  rw [nextWord, List.head?_drop]

/-- At the end only the beginning of a phrase could stand. -/
theorem Rule.read_nil_ne_ok (rule : Rule) (t : Tree) (rest : List Token) :
    rule.read [] ≠ .ok t rest := by
  intro h
  by_cases hrule : rule = .program
  · rw [hrule] at h
    exact ((program_upTo_ok_iff (Nat.le_refl _)).1 h).1 rfl
  · obtain ⟨taken, htaken, ⟨hderives, -⟩, -⟩ :=
      (upTo_ok_iff hrule (Nat.le_refl _)).1 h
    refine hderives.ne_nil hrule ?_
    rw [(List.append_eq_nil_iff.1 htaken.symm).1]
    rfl

/-- A rule gives a tree only where a token is left. -/
theorem Cursor.lt_of_read_ok {tokens : List Token} {p : Nat} {rule : Rule}
    {t : Tree} {c : Cursor}
    (h : (Cursor.mk tokens p).perform rule.read = (.ok t, c)) :
    p < tokens.length := by
  by_cases hp : p < tokens.length
  · exact hp
  · unfold perform left at h
    rw [List.drop_eq_nil_of_le (Nat.le_of_not_lt hp)] at h
    cases hres : rule.read [] with
    | ok t' rest => exact absurd hres (rule.read_nil_ne_ok t' rest)
    | error e rest =>
        rw [hres] at h
        cases h

/-- A phrase is accepted between two places exactly if the words there
derive it. -/
theorem Cursor.read_phrase_iff {tokens : List Token} {p q : Nat}
    {rule : Rule} (hrule : rule ≠ .program) {t : Tree} :
    (Cursor.mk tokens p).perform rule.read = (.ok t, ⟨tokens, q⟩)
      ↔ p ≤ q ∧ q ≤ tokens.length
        ∧ Derives rule (wordsBetween tokens p q) t
        ∧ Legible (wordsBetween tokens p q)
        ∧ ∀ c b, t = .stmt (.ifThen c b) →
          tokens[q]?.map Token.value ≠ some "else" := by
  constructor
  · intro h
    have hp := Nat.le_of_lt (lt_of_read_ok h)
    obtain ⟨hpq, hq, hread⟩ := (perform_ok_iff rule.read_suffix hp).1 h
    obtain ⟨taken, htaken, ⟨hderives, hlegible⟩, hnext⟩ :=
      (Rule.upTo_ok_iff hrule (Nat.le_refl _)).1 hread
    rw [eq_extract_of_drop_eq hpq htaken] at hderives hlegible
    rw [nextWord_drop] at hnext
    exact ⟨hpq, hq, hderives, hlegible, hnext⟩
  · intro h
    obtain ⟨hpq, hq, hderives, hlegible, hnext⟩ := h
    have hp := Nat.le_trans hpq hq
    refine (perform_ok_iff rule.read_suffix hp).2 ⟨hpq, hq, ?_⟩
    refine (Rule.upTo_ok_iff hrule (Nat.le_refl _)).2 ?_
    rw [nextWord_drop]
    exact ⟨tokens.extract p q, drop_eq_extract_append hpq,
      ⟨hderives, hlegible⟩, hnext⟩

/-- A program is accepted exactly if a token is left and the words of all
that are left derive it. -/
theorem Cursor.read_program_iff {tokens : List Token} {p q : Nat}
    {t : Tree} :
    (Cursor.mk tokens p).perform Rule.program.read = (.ok t, ⟨tokens, q⟩)
      ↔ p < tokens.length ∧ q = tokens.length
        ∧ Derives .program (wordsBetween tokens p tokens.length) t
        ∧ Legible (wordsBetween tokens p tokens.length) := by
  have hlast (hp : p ≤ tokens.length) :
      wordsBetween tokens p tokens.length
        = (tokens.drop p).map Token.value := by
    rw [drop_eq_extract_append hp, List.drop_length, List.append_nil]
    rfl
  constructor
  · intro h
    have hp := lt_of_read_ok h
    have hle := Nat.le_of_lt hp
    obtain ⟨-, hq, hread⟩ :=
      (perform_ok_iff Rule.program.read_suffix hle).1 h
    obtain ⟨-, hrest, hderives, hlegible⟩ :=
      (Rule.program_upTo_ok_iff (Nat.le_refl _)).1 hread
    have hend : tokens.length ≤ q := List.drop_eq_nil_iff.1 hrest
    rw [hlast hle]
    exact ⟨hp, Nat.le_antisymm hq hend, hderives, hlegible⟩
  · intro h
    obtain ⟨hp, rfl, hderives, hlegible⟩ := h
    have hle := Nat.le_of_lt hp
    rw [hlast hle] at hderives hlegible
    refine (perform_ok_iff Rule.program.read_suffix hle).2
      ⟨hle, Nat.le_refl _, ?_⟩
    refine (Rule.program_upTo_ok_iff (Nat.le_refl _)).2
      ⟨?_, List.drop_length .., hderives, hlegible⟩
    exact fun hnil => absurd (List.drop_eq_nil_iff.1 hnil) (by omega)

/-- The rules accept exactly the grammar: between two places any phrase
that the words there derive, up to the end a program if the words there
fall into its statements, and never two trees for the same words. -/
theorem Cursor.accepts_exactly_grammar :
    (∀ (tokens : List Token) (p q : Nat) (rule : Rule) (t : Tree),
      rule ≠ .program →
      ((Cursor.mk tokens p).perform rule.read = (.ok t, ⟨tokens, q⟩)
        ↔ p ≤ q ∧ q ≤ tokens.length
          ∧ Derives rule (wordsBetween tokens p q) t
          ∧ Legible (wordsBetween tokens p q)
          ∧ ∀ c b, t = .stmt (.ifThen c b) →
            tokens[q]?.map Token.value ≠ some "else"))
    ∧ (∀ (tokens : List Token) (p q : Nat) (ss : List Stmt),
      (Cursor.mk tokens p).perform Rule.program.read
          = (.ok (.program ⟨ss⟩), ⟨tokens, q⟩)
        ↔ p < tokens.length ∧ q = tokens.length
          ∧ (∃ parts : List (List String),
            wordsBetween tokens p tokens.length = parts.flatten
            ∧ parts.length = ss.length
            ∧ ∀ u s, (u, s) ∈ parts.zip ss → Derives .stmt u (.stmt s))
          ∧ Legible (wordsBetween tokens p tokens.length))
    ∧ ∀ (rule : Rule) (ws : List String) (t t' : Tree),
      Derives rule ws t → Derives rule ws t' → t = t' := by
  refine ⟨?_, ?_, ?_⟩
  · intro tokens p q rule t hrule
    exact Cursor.read_phrase_iff hrule
  · intro tokens p q ss
    rw [← derives_program_iff]
    exact Cursor.read_program_iff
  · intro rule ws t t' h h'
    exact h.tree_eq h'

theorem Cursor.accepts_exactly_grammar_choice :
    Rule.choice ≠ .program
    ∧ Derives .choice
      ["if", "(", "eq", "(", "1", ",", "-0", ")", ")",
        "\x7b", "move", ";", "\x7d"]
      (.stmt (.ifThen (.compare .eq (.number 1) (.number 0))
        [.once .move]))
    ∧ ¬ Derives .expr ["-0"] (.expr (.number 1)) := by
  have hrule : Rule.choice ≠ .program := by decide
  have hread : (Cursor.mk (["if", "(", "eq", "(", "1", ",", "-0", ")", ")",
        "\x7b", "move", ";", "\x7d", "turnL", ";"].map fun w =>
          (⟨w, .start⟩ : Token)) 0).perform Rule.choice.read
      = (.ok (.stmt (.ifThen (.compare .eq (.number 1) (.number 0))
          [.once .move])), ⟨_, 13⟩) := rfl
  obtain ⟨-, -, hderives, -, -⟩ :=
    (Cursor.accepts_exactly_grammar.1 _ _ _ _ _ hrule).1 hread
  refine ⟨hrule, hderives, ?_⟩
  intro h
  have hzero : Derives .expr ["-0"] (.expr (.number 0)) := .number rfl
  have heq := Cursor.accepts_exactly_grammar.2.2 _ _ _ _ h hzero
  cases heq

end RobotLang
