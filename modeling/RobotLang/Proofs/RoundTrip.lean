/-
Writing and reading undo each other.

The text of a tree falls into the tree's words, and the tree's words
derive it. So its tokens are read as the tree again, whatever tokens stand
behind them, as long as its numbers are not too long to be read. The other
way round a tree that was read is written with the words that were taken,
except that zero has no sign: nothing else of a source is lost, and
nothing is added or moved.
-/
import RobotLang.Proofs.Acceptance

namespace RobotLang

open Reading

-- ============================================================ numbers

/-- The number has no more decimal digits than can be read or written. -/
def Numeral.IsShort (n : Int) : Prop :=
  (Nat.toDigits 10 n.natAbs).length ≤ Numeral.digitLimit

theorem Numeral.legible_write_iff {n : Int} :
    Legible [Numeral.write n] ↔ Numeral.IsShort n := by
  rw [legible_singleton, Numeral.digits_write]
  exact imp_iff_right (Numeral.isNumeral_write n)

/-- The numbers in an expression, in order. -/
def Expr.numbers : Expr → List Int
  | .number n => [n]
  | .sensor _ => []
  | .arith _ l r => l.numbers ++ r.numbers

/-- The numbers in a condition, in order. -/
def Cond.numbers : Cond → List Int
  | .compare _ l r => l.numbers ++ r.numbers
  | .both l r => l.numbers ++ r.numbers
  | .either l r => l.numbers ++ r.numbers
  | .negate c => c.numbers

mutual

/-- The numbers in a statement, in order. -/
def Stmt.numbers : Stmt → List Int
  | .once _ => []
  | .times _ e => e.numbers
  | .loop b => Stmt.allNumbers b
  | .whileDo c b => c.numbers ++ Stmt.allNumbers b
  | .ifThen c b => c.numbers ++ Stmt.allNumbers b
  | .ifElse c b o => c.numbers ++ (Stmt.allNumbers b ++ Stmt.allNumbers o)

/-- The numbers in several statements, in order. -/
def Stmt.allNumbers : List Stmt → List Int
  | [] => []
  | s :: ss => s.numbers ++ Stmt.allNumbers ss

end

/-- The numbers in a tree, in order. -/
def Tree.numbers : Tree → List Int
  | .expr e => e.numbers
  | .cond c => c.numbers
  | .relation _ => []
  | .stmt s => s.numbers
  | .block b => Stmt.allNumbers b
  | .program p => Stmt.allNumbers p.statements

/-- All the numbers are short. -/
def AllShort (ns : List Int) : Prop := ∀ n ∈ ns, Numeral.IsShort n

instance (n : Int) : Decidable (Numeral.IsShort n) :=
  inferInstanceAs (Decidable (_ ≤ _))

instance (ns : List Int) : Decidable (AllShort ns) :=
  inferInstanceAs (Decidable (∀ n ∈ ns, Numeral.IsShort n))

@[simp] theorem allShort_nil : AllShort [] := fun _ h => by cases h

@[simp] theorem allShort_append {ms ns : List Int} :
    AllShort (ms ++ ns) ↔ AllShort ms ∧ AllShort ns := by
  simp only [AllShort, List.mem_append, or_imp, forall_and]

theorem Expr.legible_words_iff (e : Expr) :
    Legible e.words ↔ AllShort e.numbers := by
  induction e with
  | number n =>
      rw [Expr.words, Numeral.legible_write_iff]
      simp [AllShort, Expr.numbers]
  | sensor s => simp [Expr.words, Expr.numbers]
  | arith o l r hl hr => simp [Expr.words, Expr.numbers, hl, hr]

theorem Cond.legible_words_iff (c : Cond) :
    Legible c.words ↔ AllShort c.numbers := by
  induction c with
  | compare p l r =>
      simp [Cond.words, Cond.numbers, l.legible_words_iff,
        r.legible_words_iff]
  | both l r hl hr | either l r hl hr =>
      simp [Cond.words, Cond.numbers, hl, hr]
  | negate c hc => simp [Cond.words, Cond.numbers, hc]

mutual

theorem Stmt.legible_words_iff :
    (s : Stmt) → (Legible s.words ↔ AllShort s.numbers)
  | .once a => by simp [Stmt.words, Stmt.numbers]
  | .times a e => by
      simp [Stmt.words, Stmt.numbers, e.legible_words_iff]
  | .loop b => by
      simp [Stmt.words, Stmt.numbers, Stmt.legible_allWords_iff b]
  | .whileDo c b => by
      simp [Stmt.words, Stmt.numbers, c.legible_words_iff,
        Stmt.legible_allWords_iff b]
  | .ifThen c b => by
      simp [Stmt.words, Stmt.numbers, c.legible_words_iff,
        Stmt.legible_allWords_iff b]
  | .ifElse c b o => by
      simp [Stmt.words, Stmt.numbers, c.legible_words_iff,
        Stmt.legible_allWords_iff b, Stmt.legible_allWords_iff o]

theorem Stmt.legible_allWords_iff :
    (ss : List Stmt) →
      (Legible (Stmt.allWords ss) ↔ AllShort (Stmt.allNumbers ss))
  | [] => by simp [Stmt.allWords, Stmt.allNumbers]
  | s :: ss => by
      simp [Stmt.allWords, Stmt.allNumbers, Stmt.legible_words_iff s,
        Stmt.legible_allWords_iff ss]

end

/-- The words of a tree are legible exactly if its numbers are short. -/
theorem Tree.legible_words_iff (t : Tree) :
    Legible t.words ↔ AllShort t.numbers := by
  cases t with
  | expr e => exact e.legible_words_iff
  | cond c => exact c.legible_words_iff
  | relation r => simp [Tree.words, Tree.numbers]
  | stmt s => exact s.legible_words_iff
  | block b => simp [Tree.words, Tree.numbers, Stmt.legible_allWords_iff b]
  | program p => exact Stmt.legible_allWords_iff p.statements

-- ===================================================== round trips

/-- The tokens of a tree's text are read as the tree, in front of any
others but an `else` behind a choice without one. -/
theorem Tree.read_tokenize_text {t : Tree} (ht : t.rule ≠ .program)
    (hshort : AllShort t.numbers) {rest : List Token}
    (hrest : ∀ c b, t = .stmt (.ifThen c b) →
      nextWord rest ≠ some "else") :
    t.rule.read (tokenize t.text ++ rest) = .ok t rest := by
  have hwords := t.map_value_tokenize_text
  refine (Rule.upTo_ok_iff ht (Nat.le_refl _)).2
    ⟨tokenize t.text, rfl, ⟨?_, ?_⟩, hrest⟩
  · rw [hwords]
    exact t.derives_words
  · rw [hwords]
    exact t.legible_words_iff.2 hshort

/-- A program that says something is read from its own text. -/
theorem Program.ofText_text {p : Program} (hp : p.statements ≠ [])
    (hshort : AllShort (Tree.program p).numbers) :
    Program.ofText p.text = .ok p := by
  have hwords : (tokenize p.text).map Token.value
      = (Tree.program p).words :=
    (Tree.program p).map_value_tokenize_text
  unfold Program.ofText
  rw [Program.ofTokens_eq_ok_iff]
  constructor
  · intro hnil
    obtain ⟨ss⟩ := p
    cases ss with
    | nil => exact hp rfl
    | cons s ss =>
        obtain ⟨w, us, hw, -⟩ := s.words_eq_cons
        rw [hnil, Tree.words, Stmt.allWords, hw] at hwords
        cases hwords
  · rw [hwords]
    exact ⟨(Tree.program p).derives_words,
      (Tree.program p).legible_words_iff.2 hshort⟩

/-- Reading undoes writing, for phrases in front of anything that may
follow them and for programs. -/
theorem Tree.reading_undoes_writing :
    (∀ (t : Tree) (rest : List Token), t.rule ≠ .program →
      AllShort t.numbers →
      (∀ c b, t = .stmt (.ifThen c b) → nextWord rest ≠ some "else") →
      t.rule.read (tokenize t.text ++ rest) = .ok t rest)
    ∧ ∀ p : Program, p.statements ≠ [] →
      AllShort (Tree.program p).numbers →
      Program.ofText p.text = .ok p := by
  constructor
  · intro t rest ht hshort hrest
    exact Tree.read_tokenize_text ht hshort hrest
  · intro p hp hshort
    exact Program.ofText_text hp hshort

theorem Tree.reading_undoes_writing_ifThen :
    (AllShort (Tree.stmt (.ifThen (.compare .lt (.number (-3))
        (.sensor .fuelLeft)) [.times .move (.number 12)])).numbers
      ∧ Rule.stmt.read (tokenize (Tree.stmt (.ifThen (.compare .lt
          (.number (-3)) (.sensor .fuelLeft))
          [.times .move (.number 12)])).text ++ [⟨"\x7d", .start⟩])
        = .ok (.stmt (.ifThen (.compare .lt (.number (-3))
          (.sensor .fuelLeft)) [.times .move (.number 12)]))
          [⟨"\x7d", .start⟩])
    ∧ Program.ofText (Program.text ⟨[.loop [.once .turnLeft]]⟩)
      = .ok ⟨[.loop [.once .turnLeft]]⟩ := by
  have hshort : AllShort (Tree.stmt (.ifThen (.compare .lt (.number (-3))
      (.sensor .fuelLeft)) [.times .move (.number 12)])).numbers := by
    decide
  refine ⟨⟨hshort, ?_⟩, ?_⟩
  · exact Tree.reading_undoes_writing.1 (.stmt (.ifThen (.compare .lt
      (.number (-3)) (.sensor .fuelLeft)) [.times .move (.number 12)]))
      [⟨"\x7d", .start⟩] (by decide) hshort (fun _ _ _ => by decide)
  · exact Tree.reading_undoes_writing.2 ⟨[.loop [.once .turnLeft]]⟩
      (List.cons_ne_nil _ _) (by decide)

/-- What was read is written with the words that were taken. -/
theorem Derives.map_value_tokenize_text {rule : Rule} {ws : List String}
    {t : Tree} (h : Derives rule ws t) :
    (tokenize t.text).map Token.value = ws.map Numeral.tidy := by
  rw [t.map_value_tokenize_text, h.words_eq]

/-- The words from where a rule began to where it stopped. -/
theorem Cursor.derives_of_read {tokens : List Token} {p q : Nat}
    {rule : Rule} {t : Tree}
    (h : (Cursor.mk tokens p).perform rule.read = (.ok t, ⟨tokens, q⟩)) :
    Derives rule (wordsBetween tokens p q) t := by
  by_cases hrule : rule = .program
  · rw [hrule] at h ⊢
    obtain ⟨-, hq, hderives, -⟩ := Cursor.read_program_iff.1 h
    rw [hq]
    exact hderives
  · obtain ⟨-, -, hderives, -, -⟩ := (Cursor.read_phrase_iff hrule).1 h
    exact hderives

/-- Nothing of a source is lost, added or moved by reading it: a tree is
written with the words it was read from, and programs are the same exactly
if their sources have the same words, up to the sign of a zero. -/
theorem Cursor.reading_keeps_words :
    (∀ (tokens : List Token) (p q : Nat) (rule : Rule) (t : Tree),
      (Cursor.mk tokens p).perform rule.read = (.ok t, ⟨tokens, q⟩) →
      (tokenize t.text).map Token.value
        = (wordsBetween tokens p q).map Numeral.tidy)
    ∧ ∀ (a b : String) (p q : Program),
      Program.ofText a = .ok p → Program.ofText b = .ok q →
      (p = q ↔ ((tokenize a).map Token.value).map Numeral.tidy
        = ((tokenize b).map Token.value).map Numeral.tidy) := by
  constructor
  · intro tokens p q rule t h
    exact (Cursor.derives_of_read h).map_value_tokenize_text
  · intro a b p q ha hb
    obtain ⟨-, ha, -⟩ := Program.ofTokens_eq_ok_iff.1 ha
    obtain ⟨-, hb, -⟩ := Program.ofTokens_eq_ok_iff.1 hb
    rw [← ha.words_eq, ← hb.words_eq]
    constructor
    · intro h
      rw [h]
    · intro h
      exact Tree.program.inj (Tree.eq_of_words_eq rfl h)

theorem Cursor.reading_keeps_words_move :
    (Cursor.mk (["turnL", ";", "move", "(", "-0", ")", ";"].map fun w =>
        (⟨w, .start⟩ : Token)) 2).perform Rule.stmt.read
      = (.ok (.stmt (.times .move (.number 0))),
        ⟨["turnL", ";", "move", "(", "-0", ")", ";"].map fun w =>
          (⟨w, .start⟩ : Token), 7⟩)
    ∧ (tokenize (Tree.stmt (.times .move (.number 0))).text).map Token.value
      = ["move", "(", "0", ")", ";"]
    ∧ Program.ofText "wait;" = .ok ⟨[.once .wait]⟩
    ∧ Program.ofText "move;" = .ok ⟨[.once .move]⟩
    ∧ (⟨[.once .wait]⟩ : Program) ≠ ⟨[.once .move]⟩ := by
  have hread : (Cursor.mk (["turnL", ";", "move", "(", "-0", ")",
        ";"].map fun w => (⟨w, .start⟩ : Token)) 2).perform Rule.stmt.read
      = (.ok (.stmt (.times .move (.number 0))), ⟨_, 7⟩) := rfl
  have hwait : Program.ofText "wait;" = .ok ⟨[.once .wait]⟩ := rfl
  have hmove : Program.ofText "move;" = .ok ⟨[.once .move]⟩ := rfl
  refine ⟨hread, ?_, hwait, hmove, ?_⟩
  · exact Cursor.reading_keeps_words.1 _ _ _ _ _ hread
  · intro h
    have hwords := (Cursor.reading_keeps_words.2 _ _ _ _ hwait hmove).1 h
    exact absurd hwords (by decide)

end RobotLang
