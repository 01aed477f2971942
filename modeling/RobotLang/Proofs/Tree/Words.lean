/-
The canonical words of a tree, and that its canonical text falls into them.

A phrase is cut out of a longer text, so the statement is about the text
of a phrase with anything behind it that does not go on with a letter
(`SplitsInto`). Every phrase inside another one is followed by a mark or
by white space, which is what makes the statement pass from the parts to
the whole; at the end of a text nothing follows.
-/
import RobotLang.Proofs.Numeral
import RobotLang.Proofs.Token
import RobotLang.Tree.Text

namespace RobotLang

open Text

-- ============================================================== shapes

/-- Words between parentheses. -/
def inParens (ws : List String) : List String :=
  Mark.openParen.word :: (ws ++ [Mark.closeParen.word])

/-- Words between braces. -/
def inBraces (ws : List String) : List String :=
  Mark.openBrace.word :: (ws ++ [Mark.closeBrace.word])

/-- A word applied to two operands. -/
def call (w : String) (left right : List String) : List String :=
  w :: inParens (left ++ Mark.comma.word :: right)

theorem call_eq (w : String) (u v : List String) :
    call w u v = w :: Mark.openParen.word :: (u ++ Mark.comma.word
      :: (v ++ [Mark.closeParen.word])) := by
  simp [call, inParens]

-- ============================================================== words

/-- The words of an expression. -/
def Expr.words : Expr → List String
  | .number n => [Numeral.write n]
  | .sensor s => [s.word]
  | .arith o l r => call o.word l.words r.words

/-- The words of a condition. -/
def Cond.words : Cond → List String
  | .compare p l r => call p.word l.words r.words
  | .both l r => call Connective.and.word l.words r.words
  | .either l r => call Connective.or.word l.words r.words
  | .negate c => Connective.not.word :: inParens c.words

mutual

/-- The words of a statement. -/
def Stmt.words : Stmt → List String
  | .once a => [a.word, Mark.semicolon.word]
  | .times a e =>
    a.action.word :: (inParens e.words ++ [Mark.semicolon.word])
  | .loop b => "loop" :: inBraces (Stmt.allWords b)
  | .whileDo c b =>
    "while" :: (inParens c.words ++ inBraces (Stmt.allWords b))
  | .ifThen c b => "if" :: (inParens c.words ++ inBraces (Stmt.allWords b))
  | .ifElse c b o =>
    "if" :: (inParens c.words ++ (inBraces (Stmt.allWords b)
      ++ "else" :: inBraces (Stmt.allWords o)))

/-- The words of several statements, one after another. -/
def Stmt.allWords : List Stmt → List String
  | [] => []
  | s :: ss => s.words ++ Stmt.allWords ss

end

/-- The words of a phrase. -/
def Tree.words : Tree → List String
  | .expr e => e.words
  | .cond c => c.words
  | .relation r => [r.word]
  | .stmt s => s.words
  | .block b => inBraces (Stmt.allWords b)
  | .program p => Stmt.allWords p.statements

-- ========================================================== splitting

/-- The text falls into the words, whatever follows it but a letter. -/
def SplitsInto (text : String) (ws : List String) : Prop :=
  ∀ rest, Lexeme.goesOn rest = false →
    wordsOf (text.toList ++ rest) = ws ++ wordsOf rest

/-- Whether the text is made of letters, and not empty. -/
def IsWord (w : String) : Prop :=
  w.toList ≠ [] ∧ ∀ c ∈ w.toList, isLetter c = true

theorem IsWord.splitsInto {w : String} (hw : IsWord w) :
    SplitsInto w [w] := fun _ hrest =>
  wordsOf_word hw.1 hw.2 hrest

theorem splitsInto_applied {w left right : String} {u v : List String}
    (hw : IsWord w) (hl : SplitsInto left u) (hr : SplitsInto right v) :
    SplitsInto (applied w left right) (call w u v) := by
  intro rest _
  have htext : (applied w left right).toList ++ rest
      = w.toList ++ Mark.openParen.char :: (left.toList
        ++ Mark.comma.char :: ' ' :: (right.toList
        ++ Mark.closeParen.char :: rest)) := by
    simp [applied, Mark.char]
  rw [htext, wordsOf_word hw.1 hw.2 rfl, wordsOf_mark, hl _ rfl,
    wordsOf_mark, wordsOf_blank rfl, hr _ rfl, wordsOf_mark]
  simp [call, inParens]

/-- Texts with white space between them fall into the words of each. -/
theorem splitsInto_intercalate (sep : Char) (hsep : isBlank sep = true)
    (ss : List Stmt) (h : ∀ s ∈ ss, SplitsInto s.text s.words) :
    SplitsInto ((String.singleton sep).intercalate (Stmt.texts ss))
      (Stmt.allWords ss) := by
  induction ss with
  | nil => intro rest _; rfl
  | cons s ss ih =>
      have hs := h s (List.mem_cons_self ..)
      have hss := ih fun t ht => h t (List.mem_cons_of_mem _ ht)
      cases ss with
      | nil =>
          rw [Stmt.texts, Stmt.texts, String.intercalate_singleton,
            Stmt.allWords, Stmt.allWords, List.append_nil]
          exact hs
      | cons t ts =>
          intro rest hrest
          have hgo : ∀ cs, Lexeme.goesOn (sep :: cs) = false := fun cs => by
            simp [Lexeme.goesOn, isLetter, hsep]
          rw [Stmt.allWords, Stmt.texts, Stmt.texts,
            String.intercalate_cons_cons, ← Stmt.texts,
            String.toList_append, String.toList_append,
            String.toList_singleton, List.append_assoc, List.append_assoc,
            List.singleton_append, hs _ (hgo _), wordsOf_blank hsep,
            hss rest hrest, List.append_assoc]

/-- Statements between braces fall into their words between braces. -/
theorem splitsInto_braced (ss : List Stmt)
    (h : ∀ s ∈ ss, SplitsInto s.text s.words) :
    SplitsInto (braced (Stmt.texts ss)) (inBraces (Stmt.allWords ss)) := by
  intro rest _
  cases ss with
  | nil =>
      have htext : (braced (Stmt.texts [])).toList ++ rest
          = Mark.openBrace.char :: Mark.closeBrace.char :: rest := rfl
      rw [htext, wordsOf_mark, wordsOf_mark]
      rfl
  | cons s ss =>
      have hss := splitsInto_intercalate ' ' rfl (s :: ss) h
      have htext : (braced (Stmt.texts (s :: ss))).toList ++ rest
          = Mark.openBrace.char :: ' ' ::
            (((String.singleton ' ').intercalate
              (Stmt.texts (s :: ss))).toList
            ++ ' ' :: Mark.closeBrace.char :: rest) := by
        simp [braced, Stmt.texts, Mark.char]
      rw [htext, wordsOf_mark, wordsOf_blank rfl, hss _ rfl,
        wordsOf_blank rfl, wordsOf_mark]
      simp [inBraces]

-- ====================================================== every keyword

/-- A digit or a minus sign is a letter. -/
theorem isLetter_of_isDigit {c : Char} (hc : c.isDigit = true ∨ c = '-') :
    isLetter c = true := by
  rcases hc with hc | rfl
  · have hrange := Char.isDigit_iff_toNat.1 hc
    have h0 : '0'.toNat = 48 := rfl
    have h9 : '9'.toNat = 57 := rfl
    have hmark : ∀ m ∈ Mark.all, (m.char == c) = false := by
      intro m _
      rw [beq_eq_false_iff_ne]
      rintro rfl
      cases m <;> simp [Mark.char] at hrange
    simp only [isLetter, isBlank, Ranges.holds, isMark, Bool.and_eq_true,
      Bool.not_eq_true', List.any_eq_false, decide_eq_true_eq]
    refine ⟨fun r hr => ?_, fun m hm => by simp [hmark m hm]⟩
    simp only [blanks, List.mem_cons, List.not_mem_nil, or_false] at hr
    rcases hr with rfl | rfl | rfl | rfl | rfl | rfl | rfl | rfl | rfl | rfl <;>
      omega
  · rfl

theorem isWord_write (n : Int) : IsWord (Numeral.write n) := by
  have hdigit : ∀ c ∈ Nat.toDigits 10 n.natAbs, isLetter c = true :=
    fun c hc => isLetter_of_isDigit (.inl
      (Nat.isDigit_of_mem_toDigits (by decide) (by decide) hc))
  constructor
  · rw [Numeral.toList_write]
    split
    · exact Nat.toDigits_ne_nil
    · exact List.cons_ne_nil _ _
  · intro c hc
    rw [Numeral.toList_write] at hc
    split at hc
    · exact hdigit c hc
    · rcases List.mem_cons.1 hc with hc | hc
      · exact isLetter_of_isDigit (.inr hc)
      · exact hdigit c hc

/-- Checked letter by letter. -/
theorem isWord_of_all {w : String}
    (h : (!w.toList.isEmpty && w.toList.all isLetter) = true) :
    IsWord w := by
  rw [Bool.and_eq_true] at h
  constructor
  · intro hnil
    rw [hnil] at h
    exact absurd h.1 (by decide)
  · exact List.all_eq_true.1 h.2

theorem isWord_action (a : Action) : IsWord a.word := by
  cases a <;> exact isWord_of_all rfl

theorem isWord_sensor (s : Sensor) : IsWord s.word := by
  cases s <;> exact isWord_of_all rfl

theorem isWord_operation (o : Operation) : IsWord o.word := by
  cases o <;> exact isWord_of_all rfl

theorem isWord_relation (r : Relation) : IsWord r.word := by
  cases r <;> exact isWord_of_all rfl

theorem isWord_connective (c : Connective) : IsWord c.word := by
  cases c <;> exact isWord_of_all rfl

-- ======================================================= every phrase

theorem Expr.splitsInto_text (e : Expr) : SplitsInto e.text e.words := by
  induction e with
  | number n => exact (isWord_write n).splitsInto
  | sensor s => exact (isWord_sensor s).splitsInto
  | arith o l r hl hr => exact splitsInto_applied (isWord_operation o) hl hr

theorem Cond.splitsInto_text (c : Cond) : SplitsInto c.text c.words := by
  induction c with
  | compare p l r =>
      exact splitsInto_applied (isWord_relation p) l.splitsInto_text
        r.splitsInto_text
  | both l r hl hr => exact splitsInto_applied (isWord_connective _) hl hr
  | either l r hl hr => exact splitsInto_applied (isWord_connective _) hl hr
  | negate c hc =>
      intro rest _
      have htext : (Cond.negate c).text.toList ++ rest
          = Connective.not.word.toList ++ Mark.openParen.char ::
            (c.text.toList ++ Mark.closeParen.char :: rest) := by
        simp [Cond.text, Mark.char]
      have hnot := isWord_connective .not
      rw [htext, wordsOf_word hnot.1 hnot.2 rfl, wordsOf_mark, hc _ rfl,
        wordsOf_mark]
      simp [Cond.words, inParens]

/-- A keyword in front of a condition between parentheses and a block. -/
theorem splitsInto_guarded {w block : String} {u : List String}
    (hw : IsWord w) (c : Cond) (hblock : SplitsInto block u) :
    SplitsInto (w ++ "(" ++ c.text ++ ") " ++ block)
      (w :: (inParens c.words ++ u)) := by
  intro rest hrest
  have htext : (w ++ "(" ++ c.text ++ ") " ++ block).toList ++ rest
      = w.toList ++ Mark.openParen.char :: (c.text.toList
        ++ Mark.closeParen.char :: ' ' :: (block.toList ++ rest)) := by
    simp [Mark.char]
  rw [htext, wordsOf_word hw.1 hw.2 rfl, wordsOf_mark,
    c.splitsInto_text _ rfl, wordsOf_mark, wordsOf_blank rfl,
    hblock rest hrest]
  simp [inParens]

/-- Two blocks with `else` between them. -/
theorem splitsInto_else {block other : String} {u v : List String}
    (hblock : SplitsInto block u) (hother : SplitsInto other v) :
    SplitsInto (block ++ " else " ++ other) (u ++ "else" :: v) := by
  intro rest hrest
  have htext : (block ++ " else " ++ other).toList ++ rest
      = block.toList ++ ' ' :: ("else".toList
        ++ ' ' :: (other.toList ++ rest)) := by
    simp
  have hword : IsWord "else" := isWord_of_all rfl
  rw [htext, hblock _ rfl, wordsOf_blank rfl,
    wordsOf_word hword.1 hword.2 rfl, wordsOf_blank rfl,
    hother rest hrest]
  simp

mutual

theorem Stmt.splitsInto_text : (s : Stmt) → SplitsInto s.text s.words
  | .once a => by
      intro rest _
      have htext : (Stmt.once a).text.toList ++ rest
          = a.word.toList ++ Mark.semicolon.char :: rest := by
        simp [Stmt.text, Mark.char]
      have ha := isWord_action a
      rw [htext, wordsOf_word ha.1 ha.2 rfl, wordsOf_mark, Stmt.words]
      rfl
  | .times a e => by
      intro rest _
      have htext : (Stmt.times a e).text.toList ++ rest
          = a.action.word.toList ++ Mark.openParen.char :: (e.text.toList
            ++ Mark.closeParen.char :: Mark.semicolon.char :: rest) := by
        simp [Stmt.text, Mark.char]
      have ha := isWord_action a.action
      rw [htext, wordsOf_word ha.1 ha.2 rfl, wordsOf_mark,
        e.splitsInto_text _ rfl, wordsOf_mark, wordsOf_mark, Stmt.words]
      simp [inParens]
  | .loop b => by
      intro rest hrest
      have hb := splitsInto_braced b (Stmt.splitsInto_texts b)
      have htext : (Stmt.loop b).text.toList ++ rest
          = "loop".toList
            ++ ' ' :: ((braced (Stmt.texts b)).toList ++ rest) := by
        simp [Stmt.text]
      have hword : IsWord "loop" := isWord_of_all rfl
      rw [htext, wordsOf_word hword.1 hword.2 rfl,
        wordsOf_blank rfl, hb rest hrest, Stmt.words]
      rfl
  | .whileDo c b => by
      have hb := splitsInto_braced b (Stmt.splitsInto_texts b)
      have hword : IsWord "while" := isWord_of_all rfl
      rw [Stmt.text, Stmt.words]
      exact splitsInto_guarded hword c hb
  | .ifThen c b => by
      have hb := splitsInto_braced b (Stmt.splitsInto_texts b)
      have hword : IsWord "if" := isWord_of_all rfl
      rw [Stmt.text, Stmt.words]
      exact splitsInto_guarded hword c hb
  | .ifElse c b o => by
      have hb := splitsInto_braced b (Stmt.splitsInto_texts b)
      have ho := splitsInto_braced o (Stmt.splitsInto_texts o)
      have hword : IsWord "if" := isWord_of_all rfl
      have h := splitsInto_guarded hword c (splitsInto_else hb ho)
      rw [Stmt.text, Stmt.words]
      rw [← String.append_assoc, ← String.append_assoc] at h
      exact h

theorem Stmt.splitsInto_texts :
    (ss : List Stmt) → ∀ s ∈ ss, SplitsInto s.text s.words
  | [] => fun _ hs => absurd hs List.not_mem_nil
  | s :: ss => by
      intro t ht
      rcases List.mem_cons.1 ht with h | ht
      · rw [h]
        exact Stmt.splitsInto_text s
      · exact Stmt.splitsInto_texts ss t ht

end

theorem Tree.splitsInto_text (t : Tree) : SplitsInto t.text t.words := by
  cases t with
  | expr e => exact e.splitsInto_text
  | cond c => exact c.splitsInto_text
  | relation r => exact (isWord_relation r).splitsInto
  | stmt s => exact s.splitsInto_text
  | block b => exact splitsInto_braced b (Stmt.splitsInto_texts b)
  | program p =>
      exact splitsInto_intercalate '\n' rfl p.statements
        (Stmt.splitsInto_texts p.statements)

/-- The tokens of the canonical text of a tree have the words of the tree
for their values. -/
theorem Tree.map_value_tokenize_text (t : Tree) :
    (tokenize t.text).map Token.value = t.words := by
  have h := t.splitsInto_text [] rfl
  rw [List.append_nil, wordsOf_nil, List.append_nil] at h
  rw [map_value_tokenize, h]

end RobotLang
