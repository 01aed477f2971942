/-
Words decide the tree: no two trees of one kind have the same words.

The statement is proved with more words behind each of the two phrases,
because a phrase stands in front of others inside a larger one: if two
phrases and what follows them are the same words, the phrases are the same
and so is what follows. The first word of a phrase shows its form, so two
such phrases have the same form, and the words behind their first one are
compared part by part.

Two forms begin alike, the choices with and without `else`. They are told
apart by what follows a choice: it must not begin with `else`. Inside a
list of statements this is never so, since no statement begins with `else`
and neither does what closes a block.
-/
import RobotLang.Proofs.Grammar

namespace RobotLang

-- ====================================================== common shapes

section Shapes

variable {P Q : Prop} {u v x y x' y' : List String}

/-- Words between parentheses are found again if they can be told from
what follows them. -/
theorem inParens_append_inj
    (hx : ∀ u v, x ++ u = x' ++ v → P ∧ u = v)
    (h : inParens x ++ u = inParens x' ++ v) : P ∧ u = v := by
  simp only [inParens, List.cons_append, List.append_assoc,
    List.cons.injEq, true_and] at h
  obtain ⟨hp, h⟩ := hx _ _ h
  exact ⟨hp, (List.cons.inj h).2⟩

/-- Words between braces are found again if they can be told from what
follows them. -/
theorem inBraces_append_inj
    (hx : ∀ u v, x ++ Mark.closeBrace.word :: u
      = x' ++ Mark.closeBrace.word :: v → P ∧ u = v)
    (h : inBraces x ++ u = inBraces x' ++ v) : P ∧ u = v := by
  simp only [inBraces, List.cons_append, List.append_assoc,
    List.cons.injEq, true_and] at h
  exact hx u v h

/-- Operands are found again if each can be told from what follows it. -/
theorem call_append_inj {w w' : String}
    (hx : ∀ u v, x ++ u = x' ++ v → P ∧ u = v)
    (hy : ∀ u v, y ++ u = y' ++ v → Q ∧ u = v)
    (h : call w x y ++ u = call w' x' y' ++ v) :
    w = w' ∧ P ∧ Q ∧ u = v := by
  rw [call, call, List.cons_append, List.cons_append, List.cons.injEq] at h
  have hin : ∀ u v, (x ++ Mark.comma.word :: y) ++ u
      = (x' ++ Mark.comma.word :: y') ++ v → (P ∧ Q) ∧ u = v := by
    intro u v h
    rw [List.append_assoc, List.append_assoc] at h
    obtain ⟨hp, h⟩ := hx _ _ h
    obtain ⟨hq, h⟩ := hy u v (List.cons.inj h).2
    exact ⟨⟨hp, hq⟩, h⟩
  obtain ⟨⟨hp, hq⟩, huv⟩ := inParens_append_inj hin h.2
  exact ⟨h.1, hp, hq, huv⟩

end Shapes

-- ===================================================== the first word

/-- The pattern that the first word of an expression fits. -/
def Expr.opening : Expr → Pattern
  | .number _ => .number
  | .sensor _ => .sensor
  | .arith _ _ _ => .operation

/-- The pattern that the first word of a condition fits. -/
def Cond.opening : Cond → Pattern
  | .compare _ _ _ => .relation
  | .both _ _ | .either _ _ | .negate _ => .connective

/-- The pattern that the first word of a statement fits. -/
def Stmt.opening : Stmt → Pattern
  | .once _ | .times _ _ => .action
  | .loop _ => .loopWord
  | .whileDo _ _ => .whileWord
  | .ifThen _ _ | .ifElse _ _ _ => .ifWord

theorem Expr.words_eq_cons (e : Expr) :
    ∃ w ws, e.words = w :: ws ∧ Pattern.fits w e.opening = true := by
  cases e with
  | number n => exact ⟨_, _, rfl, Numeral.isNumeral_write n⟩
  | sensor s => exact ⟨_, _, rfl, by simp [opening]⟩
  | arith o l r => exact ⟨_, _, rfl, by simp [opening]⟩

theorem Cond.words_eq_cons (c : Cond) :
    ∃ w ws, c.words = w :: ws ∧ Pattern.fits w c.opening = true := by
  cases c with
  | compare p l r => exact ⟨_, _, rfl, by simp [opening]⟩
  | both l r => exact ⟨_, _, rfl, by simp [opening]⟩
  | either l r => exact ⟨_, _, rfl, by simp [opening]⟩
  | negate c => exact ⟨_, _, rfl, by simp [opening]⟩

theorem Stmt.words_eq_cons (s : Stmt) :
    ∃ w ws, s.words = w :: ws ∧ Pattern.fits w s.opening = true := by
  cases s with
  | once a => exact ⟨_, _, by rw [Stmt.words], by simp [opening]⟩
  | times a e => exact ⟨_, _, by rw [Stmt.words], by simp [opening]⟩
  | loop b => exact ⟨_, _, by rw [Stmt.words], by simp [opening]⟩
  | whileDo c b => exact ⟨_, _, by rw [Stmt.words], by simp [opening]⟩
  | ifThen c b => exact ⟨_, _, by rw [Stmt.words], by simp [opening]⟩
  | ifElse c b o => exact ⟨_, _, by rw [Stmt.words], by simp [opening]⟩

/-- The same first word fits the same pattern. -/
theorem opening_eq {x y u v : List String} {p q : Pattern}
    (hx : ∃ w ws, x = w :: ws ∧ Pattern.fits w p = true)
    (hy : ∃ w ws, y = w :: ws ∧ Pattern.fits w q = true)
    (h : x ++ u = y ++ v) : p = q := by
  obtain ⟨w, ws, rfl, hp⟩ := hx
  obtain ⟨w', ws', rfl, hq⟩ := hy
  rw [List.cons_append, List.cons_append, List.cons.injEq] at h
  rw [← h.1] at hq
  exact Pattern.eq_of_fits hp hq

-- ======================================== expressions and conditions

/-- A meaning is decided by its word. -/
theorem word_inj {α : Type} {word : α → String}
    {ofWord? : String → Option α} (hof : ∀ a, ofWord? (word a) = some a)
    {a b : α} (h : word a = word b) : a = b := by
  have hab := congrArg ofWord? h
  rw [hof, hof] at hab
  exact Option.some.inj hab

theorem Expr.words_append_inj {e f : Expr} {u v : List String}
    (h : e.words ++ u = f.words ++ v) : e = f ∧ u = v := by
  induction e generalizing f u v with
  | number n =>
      have ho := opening_eq (Expr.words_eq_cons _) f.words_eq_cons h
      cases f with
      | number m =>
          rw [Expr.words, Expr.words, List.singleton_append,
            List.singleton_append, List.cons.injEq] at h
          have hnm := congrArg Numeral.value h.1
          rw [Numeral.value_write, Numeral.value_write] at hnm
          exact ⟨by rw [hnm], h.2⟩
      | sensor s => cases ho
      | arith o l r => cases ho
  | sensor s =>
      have ho := opening_eq (Expr.words_eq_cons _) f.words_eq_cons h
      cases f with
      | number m => cases ho
      | sensor s' =>
          rw [Expr.words, Expr.words, List.singleton_append,
            List.singleton_append, List.cons.injEq] at h
          exact ⟨by rw [word_inj Sensor.ofWord?_word h.1], h.2⟩
      | arith o l r => cases ho
  | arith o l r hl hr =>
      have ho := opening_eq (Expr.words_eq_cons _) f.words_eq_cons h
      cases f with
      | number m => cases ho
      | sensor s => cases ho
      | arith o' l' r' =>
          obtain ⟨hw, rfl, rfl, huv⟩ := call_append_inj
            (fun u v => hl) (fun u v => hr) h
          exact ⟨by rw [word_inj Operation.ofWord?_word hw], huv⟩

theorem Cond.words_append_inj {c d : Cond} {u v : List String}
    (h : c.words ++ u = d.words ++ v) : c = d ∧ u = v := by
  induction c generalizing d u v with
  | compare p l r =>
      have ho := opening_eq (Cond.words_eq_cons _) d.words_eq_cons h
      cases d with
      | compare p' l' r' =>
          obtain ⟨hw, rfl, rfl, huv⟩ := call_append_inj
            (fun u v => Expr.words_append_inj)
            (fun u v => Expr.words_append_inj) h
          exact ⟨by rw [word_inj Relation.ofWord?_word hw], huv⟩
      | both l' r' | either l' r' => cases ho
      | negate c' => cases ho
  | both l r hl hr =>
      cases d with
      | compare p' l' r' =>
          cases opening_eq (Cond.words_eq_cons _) (Cond.words_eq_cons _) h
      | both l' r' =>
          obtain ⟨-, rfl, rfl, huv⟩ := call_append_inj
            (fun u v => hl) (fun u v => hr) h
          exact ⟨rfl, huv⟩
      | either l' r' | negate c' =>
          exact absurd (List.cons.inj h).1 (by decide)
  | either l r hl hr =>
      cases d with
      | compare p' l' r' =>
          cases opening_eq (Cond.words_eq_cons _) (Cond.words_eq_cons _) h
      | either l' r' =>
          obtain ⟨-, rfl, rfl, huv⟩ := call_append_inj
            (fun u v => hl) (fun u v => hr) h
          exact ⟨rfl, huv⟩
      | both l' r' | negate c' =>
          exact absurd (List.cons.inj h).1 (by decide)
  | negate c hc =>
      cases d with
      | compare p' l' r' =>
          cases opening_eq (Cond.words_eq_cons _) (Cond.words_eq_cons _) h
      | negate c' =>
          obtain ⟨rfl, huv⟩ := inParens_append_inj (fun u v => hc)
            (List.cons.inj h).2
          exact ⟨rfl, huv⟩
      | both l' r' | either l' r' =>
          exact absurd (List.cons.inj h).1 (by decide)

-- ========================================================= statements

/-- What may follow statements: nothing, or the end of a block. -/
def Closing (ws : List String) : Prop :=
  ws = [] ∨ ∃ v, ws = Mark.closeBrace.word :: v

/-- Statements and what closes them do not begin with `else`. -/
theorem head_allWords_append {ws : List String} (hws : Closing ws)
    (ss : List Stmt) : (Stmt.allWords ss ++ ws).head? ≠ some "else" := by
  cases ss with
  | nil =>
      rw [Stmt.allWords, List.nil_append]
      rcases hws with rfl | ⟨v, rfl⟩
      · intro h
        cases h
      · exact fun h => absurd (Option.some.inj h) (by decide)
  | cons s ss =>
      obtain ⟨w, tail, hs, hw⟩ := s.words_eq_cons
      rw [Stmt.allWords, hs]
      intro h
      rw [Option.some.inj h] at hw
      have ho := Pattern.eq_of_fits hw (q := .elseWord) rfl
      cases s <;> cases ho

/-- What closes statements is no further statement. -/
theorem Closing.ne_words_append {ws : List String} (hws : Closing ws)
    (s : Stmt) (v : List String) : ws ≠ s.words ++ v := by
  obtain ⟨w, tail, hs, hw⟩ := s.words_eq_cons
  intro heq
  rw [hs] at heq
  rcases hws with h | ⟨u, h⟩
  · rw [h] at heq
    cases heq
  · rw [heq] at h
    rw [(List.cons.inj h).1, Pattern.fits_mark] at hw
    cases hw

/-- A keyword and a condition between parentheses are found again. -/
theorem guarded_append_inj {w w' : String} {c d : Cond}
    {x y u v : List String}
    (h : (w :: (inParens c.words ++ x)) ++ u
      = (w' :: (inParens d.words ++ y)) ++ v) : c = d ∧ x ++ u = y ++ v := by
  rw [List.cons_append, List.cons_append, List.append_assoc,
    List.append_assoc, List.cons.injEq] at h
  exact inParens_append_inj (fun u v => Cond.words_append_inj) h.2

/-- The statements of a block are found again if they can be told from
what closes them. -/
theorem block_append_inj {b b' : List Stmt} {u v : List String}
    (hb : ∀ (tt : List Stmt) (u v : List String), Closing u → Closing v →
      Stmt.allWords b ++ u = Stmt.allWords tt ++ v → b = tt ∧ u = v)
    (h : inBraces (Stmt.allWords b) ++ u
      = inBraces (Stmt.allWords b') ++ v) : b = b' ∧ u = v := by
  refine inBraces_append_inj (fun u v h => ?_) h
  obtain ⟨hbb, h⟩ := hb b' _ _ (.inr ⟨u, rfl⟩) (.inr ⟨v, rfl⟩) h
  exact ⟨hbb, (List.cons.inj h).2⟩

mutual

theorem Stmt.words_append_inj :
    (s : Stmt) → ∀ (t : Stmt) (u v : List String),
      u.head? ≠ some "else" → v.head? ≠ some "else" →
      s.words ++ u = t.words ++ v → s = t ∧ u = v
  | .once a => by
      intro t u v hu hv h
      have ho := opening_eq (Stmt.words_eq_cons _) t.words_eq_cons h
      cases t with
      | once a' =>
          rw [Stmt.words, Stmt.words] at h
          obtain ⟨hw, h⟩ := List.cons.inj h
          exact ⟨by rw [word_inj Action.ofWord?_word hw],
            (List.cons.inj h).2⟩
      | times r e =>
          rw [Stmt.words, Stmt.words] at h
          exact absurd (List.cons.inj (List.cons.inj h).2).1 (by decide)
      | loop b | whileDo c b | ifThen c b | ifElse c b o => cases ho
  | .times r e => by
      intro t u v hu hv h
      have ho := opening_eq (Stmt.words_eq_cons _) t.words_eq_cons h
      cases t with
      | once a =>
          rw [Stmt.words, Stmt.words] at h
          exact absurd (List.cons.inj (List.cons.inj h).2).1 (by decide)
      | times r' e' =>
          rw [Stmt.words, Stmt.words, List.cons_append, List.cons_append,
            List.append_assoc, List.append_assoc] at h
          obtain ⟨hw, h⟩ := List.cons.inj h
          obtain ⟨rfl, hsemi⟩ := inParens_append_inj
            (fun u v => Expr.words_append_inj) h
          have hr := congrArg Repeatable.ofAction?
            (word_inj Action.ofWord?_word hw)
          rw [Repeatable.ofAction?_action, Repeatable.ofAction?_action]
            at hr
          exact ⟨by rw [Option.some.inj hr], (List.cons.inj hsemi).2⟩
      | loop b | whileDo c b | ifThen c b | ifElse c b o => cases ho
  | .loop b => by
      intro t u v hu hv h
      have ho := opening_eq (Stmt.words_eq_cons _) t.words_eq_cons h
      cases t with
      | loop b' =>
          rw [Stmt.words, Stmt.words] at h
          obtain ⟨rfl, huv⟩ := block_append_inj
            (Stmt.allWords_append_inj b) (List.cons.inj h).2
          exact ⟨rfl, huv⟩
      | once a => cases ho
      | times r e => cases ho
      | whileDo c b' | ifThen c b' | ifElse c b' o => cases ho
  | .whileDo c b => by
      intro t u v hu hv h
      have ho := opening_eq (Stmt.words_eq_cons _) t.words_eq_cons h
      cases t with
      | whileDo c' b' =>
          rw [Stmt.words, Stmt.words] at h
          obtain ⟨rfl, hblock⟩ := guarded_append_inj h
          obtain ⟨rfl, huv⟩ :=
            block_append_inj (Stmt.allWords_append_inj b) hblock
          exact ⟨rfl, huv⟩
      | once a | loop b' => cases ho
      | times r e => cases ho
      | ifThen c' b' | ifElse c' b' o => cases ho
  | .ifThen c b => by
      intro t u v hu hv h
      have ho := opening_eq (Stmt.words_eq_cons _) t.words_eq_cons h
      cases t with
      | ifThen c' b' =>
          rw [Stmt.words, Stmt.words] at h
          obtain ⟨rfl, hblock⟩ := guarded_append_inj h
          obtain ⟨rfl, huv⟩ :=
            block_append_inj (Stmt.allWords_append_inj b) hblock
          exact ⟨rfl, huv⟩
      | ifElse c' b' o =>
          -- the second choice goes on with `else` where the first ends
          rw [Stmt.words, Stmt.words] at h
          obtain ⟨rfl, hblock⟩ := guarded_append_inj h
          rw [List.append_assoc] at hblock
          obtain ⟨rfl, huv⟩ :=
            block_append_inj (Stmt.allWords_append_inj b) hblock
          exact absurd (by rw [huv]; rfl) hu
      | once a | loop b' => cases ho
      | times r e => cases ho
      | whileDo c' b' => cases ho
  | .ifElse c b o => by
      intro t u v hu hv h
      have ho := opening_eq (Stmt.words_eq_cons _) t.words_eq_cons h
      cases t with
      | ifThen c' b' =>
          rw [Stmt.words, Stmt.words] at h
          obtain ⟨rfl, hblock⟩ := guarded_append_inj h
          rw [List.append_assoc] at hblock
          obtain ⟨rfl, huv⟩ :=
            block_append_inj (Stmt.allWords_append_inj b) hblock
          exact absurd (by rw [← huv]; rfl) hv
      | ifElse c' b' o' =>
          rw [Stmt.words, Stmt.words] at h
          obtain ⟨rfl, hblock⟩ := guarded_append_inj h
          rw [List.append_assoc, List.append_assoc] at hblock
          obtain ⟨rfl, helse⟩ :=
            block_append_inj (Stmt.allWords_append_inj b) hblock
          obtain ⟨rfl, huv⟩ := block_append_inj
            (Stmt.allWords_append_inj o) (List.cons.inj helse).2
          exact ⟨rfl, huv⟩
      | once a | loop b' => cases ho
      | times r e => cases ho
      | whileDo c' b' => cases ho

theorem Stmt.allWords_append_inj :
    (ss : List Stmt) → ∀ (tt : List Stmt) (u v : List String),
      Closing u → Closing v →
      Stmt.allWords ss ++ u = Stmt.allWords tt ++ v → ss = tt ∧ u = v
  | [] => by
      intro tt u v hu hv h
      cases tt with
      | nil => exact ⟨rfl, h⟩
      | cons t tt =>
          rw [Stmt.allWords, Stmt.allWords, List.append_assoc] at h
          exact absurd h (hu.ne_words_append t _)
  | s :: ss => by
      intro tt u v hu hv h
      cases tt with
      | nil =>
          rw [Stmt.allWords, Stmt.allWords, List.append_assoc] at h
          exact absurd h.symm (hv.ne_words_append s _)
      | cons t tt =>
          rw [Stmt.allWords, Stmt.allWords, List.append_assoc,
            List.append_assoc] at h
          obtain ⟨hst, h⟩ := Stmt.words_append_inj s _ _ _
            (head_allWords_append hu ss) (head_allWords_append hv tt) h
          obtain ⟨hsst, huv⟩ := Stmt.allWords_append_inj ss _ _ _ hu hv h
          exact ⟨by rw [hst, hsst], huv⟩

end

-- ========================================================= every tree

/-- Trees of one kind with the same words are the same. -/
theorem Tree.eq_of_words_eq {t t' : Tree} (hrule : t.rule = t'.rule)
    (hwords : t.words = t'.words) : t = t' := by
  have happend := congrArg (· ++ []) hwords
  cases t with
  | expr e =>
      cases t' with
      | expr f => rw [(Expr.words_append_inj happend).1]
      | _ => cases hrule
  | cond c =>
      cases t' with
      | cond d => rw [(Cond.words_append_inj happend).1]
      | _ => cases hrule
  | relation r =>
      cases t' with
      | relation p =>
          rw [word_inj Relation.ofWord?_word (List.cons.inj hwords).1]
      | _ => cases hrule
  | stmt s =>
      cases t' with
      | stmt s' =>
          rw [(Stmt.words_append_inj s s' [] [] (by decide) (by decide)
            happend).1]
      | _ => cases hrule
  | block b =>
      cases t' with
      | block b' =>
          rw [(block_append_inj (Stmt.allWords_append_inj b) happend).1]
      | _ => cases hrule
  | program p =>
      obtain ⟨ss⟩ := p
      cases t' with
      | program p' =>
          obtain ⟨tt⟩ := p'
          rw [(Stmt.allWords_append_inj ss tt [] [] (.inl rfl) (.inl rfl)
            happend).1]
      | _ => cases hrule

/-- The words decide the tree that they derive. -/
theorem Derives.tree_eq {rule : Rule} {ws : List String} {t t' : Tree}
    (h : Derives rule ws t) (h' : Derives rule ws t') : t = t' := by
  apply Tree.eq_of_words_eq
  · rw [h.rule_eq, h'.rule_eq]
  · rw [h.words_eq, h'.words_eq]

end RobotLang
