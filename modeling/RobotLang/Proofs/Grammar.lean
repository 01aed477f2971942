/-
The grammar, as derivations over words.

`Derives rule words tree` says that the words derive the tree from the
nonterminal of the rule; there is one constructor for each way of forming
a phrase. The statements of a program follow one another, and so do those
between braces: what a block encloses is derived as a program is.

The grammar sets no limit to the digits of a numeral and does not say
where a phrase ends. Both are matters of reading.

Two facts connect derivations with the canonical words of a tree. The
canonical words derive the tree (`Tree.derives_words`), and words that
derive it are canonical but for a minus sign in front of a zero
(`Derives.words_eq`).

Words are legible if no numeral among them has more digits than can be
read. Only numerals matter to that, so keywords and marks drop out of it.
-/
import RobotLang.Proofs.Pattern
import RobotLang.Proofs.Tree.Words
import RobotLang.Reading.Rules

namespace RobotLang

-- ========================================================= derivations

/-- The words derive the tree from the rule. -/
inductive Derives : Rule → List String → Tree → Prop
  | number {w : String} (hw : Numeral.isNumeral w = true) :
      Derives .expr [w] (.expr (.number (Numeral.value w)))
  | exprSensor {ws : List String} {t : Tree} (h : Derives .sensor ws t) :
      Derives .expr ws t
  | exprOperation {ws : List String} {t : Tree}
      (h : Derives .operation ws t) : Derives .expr ws t
  | sensor (s : Sensor) : Derives .sensor [s.word] (.expr (.sensor s))
  | operation (o : Operation) {u v : List String} {l r : Expr}
      (hl : Derives .expr u (.expr l)) (hr : Derives .expr v (.expr r)) :
      Derives .operation (call o.word u v) (.expr (.arith o l r))
  | relation (r : Relation) : Derives .relation [r.word] (.relation r)
  | comparison {w : String} {p : Relation} {u v : List String}
      {l r : Expr} (hp : Derives .relation [w] (.relation p))
      (hl : Derives .expr u (.expr l)) (hr : Derives .expr v (.expr r)) :
      Derives .cond (call w u v) (.cond (.compare p l r))
  | condConnected {ws : List String} {t : Tree}
      (h : Derives .connected ws t) : Derives .cond ws t
  | both {u v : List String} {l r : Cond}
      (hl : Derives .cond u (.cond l)) (hr : Derives .cond v (.cond r)) :
      Derives .connected (call Connective.and.word u v) (.cond (.both l r))
  | either {u v : List String} {l r : Cond}
      (hl : Derives .cond u (.cond l)) (hr : Derives .cond v (.cond r)) :
      Derives .connected (call Connective.or.word u v)
        (.cond (.either l r))
  | negate {ws : List String} {c : Cond} (hc : Derives .cond ws (.cond c)) :
      Derives .connected (Connective.not.word :: inParens ws)
        (.cond (.negate c))
  | once (a : Action) :
      Derives .action [a.word, Mark.semicolon.word] (.stmt (.once a))
  | times (a : Repeatable) {ws : List String} {e : Expr}
      (he : Derives .expr ws (.expr e)) :
      Derives .action
        (a.action.word :: (inParens ws ++ [Mark.semicolon.word]))
        (.stmt (.times a e))
  | loop {ws : List String} {b : Block} (hb : Derives .block ws (.block b)) :
      Derives .loop ("loop" :: ws) (.stmt (.loop b))
  | whileDo {u v : List String} {c : Cond} {b : Block}
      (hc : Derives .cond u (.cond c)) (hb : Derives .block v (.block b)) :
      Derives .whileDo ("while" :: (inParens u ++ v)) (.stmt (.whileDo c b))
  | ifThen {u v : List String} {c : Cond} {b : Block}
      (hc : Derives .cond u (.cond c)) (hb : Derives .block v (.block b)) :
      Derives .choice ("if" :: (inParens u ++ v)) (.stmt (.ifThen c b))
  | ifElse {u v w : List String} {c : Cond} {b o : Block}
      (hc : Derives .cond u (.cond c)) (hb : Derives .block v (.block b))
      (ho : Derives .block w (.block o)) :
      Derives .choice ("if" :: (inParens u ++ (v ++ "else" :: w)))
        (.stmt (.ifElse c b o))
  | block {ws : List String} {ss : List Stmt}
      (h : Derives .program ws (.program ⟨ss⟩)) :
      Derives .block (inBraces ws) (.block ss)
  | stmtAction {ws : List String} {t : Tree} (h : Derives .action ws t) :
      Derives .stmt ws t
  | stmtLoop {ws : List String} {t : Tree} (h : Derives .loop ws t) :
      Derives .stmt ws t
  | stmtChoice {ws : List String} {t : Tree} (h : Derives .choice ws t) :
      Derives .stmt ws t
  | stmtWhile {ws : List String} {t : Tree} (h : Derives .whileDo ws t) :
      Derives .stmt ws t
  | none : Derives .program [] (.program ⟨[]⟩)
  | more {u v : List String} {s : Stmt} {ss : List Stmt}
      (hs : Derives .stmt u (.stmt s))
      (hss : Derives .program v (.program ⟨ss⟩)) :
      Derives .program (u ++ v) (.program ⟨s :: ss⟩)

/-- A program is derived statement by statement. -/
theorem derives_program_iff {ws : List String} {ss : List Stmt} :
    Derives .program ws (.program ⟨ss⟩)
      ↔ ∃ parts : List (List String), ws = parts.flatten
        ∧ parts.length = ss.length
        ∧ ∀ u s, (u, s) ∈ parts.zip ss → Derives .stmt u (.stmt s) := by
  constructor
  · intro h
    induction ss generalizing ws with
    | nil =>
        cases h
        exact ⟨[], rfl, rfl, fun u s hus => by cases hus⟩
    | cons s ss ih =>
        cases h with
        | @more u v _ _ hs hss =>
            obtain ⟨parts, rfl, hlen, hparts⟩ := ih hss
            refine ⟨u :: parts, rfl, congrArg (· + 1) hlen, ?_⟩
            intro u' s' hus
            rcases List.mem_cons.1 hus with heq | hmem
            · cases heq
              exact hs
            · exact hparts u' s' hmem
  · intro h
    obtain ⟨parts, rfl, hlen, hparts⟩ := h
    induction ss generalizing parts with
    | nil =>
        rw [List.length_eq_zero_iff.1 hlen]
        exact .none
    | cons s ss ih =>
        cases parts with
        | nil => cases hlen
        | cons u parts =>
            refine .more (hparts u s (List.mem_cons_self ..)) ?_
            refine ih parts (Nat.succ.inj hlen) fun u' s' hus => ?_
            exact hparts u' s' (List.mem_cons_of_mem _ hus)

-- ================================================ the canonical words

/-- The rule for a phrase of that kind. -/
def Tree.rule : Tree → Rule
  | .expr _ => .expr
  | .cond _ => .cond
  | .relation _ => .relation
  | .stmt _ => .stmt
  | .block _ => .block
  | .program _ => .program

/-- The widest rule for phrases of the same kind. -/
def Rule.widest : Rule → Rule
  | .program => .program
  | .stmt | .action | .loop | .whileDo | .choice => .stmt
  | .block => .block
  | .cond | .connected => .cond
  | .relation => .relation
  | .expr | .sensor | .operation => .expr

/-- A tree is of the kind of its rule. -/
theorem Derives.rule_eq {rule : Rule} {ws : List String} {t : Tree}
    (h : Derives rule ws t) : t.rule = rule.widest := by
  induction h with
  | exprSensor h ih | exprOperation h ih | condConnected h ih
  | stmtAction h ih | stmtLoop h ih | stmtChoice h ih | stmtWhile h ih =>
      exact ih
  | _ => rfl

theorem Expr.derives_words (e : Expr) : Derives .expr e.words (.expr e) := by
  induction e with
  | number n =>
      have h := Derives.number (Numeral.isNumeral_write n)
      rw [Numeral.value_write] at h
      exact h
  | sensor s => exact .exprSensor (.sensor s)
  | arith o l r hl hr => exact .exprOperation (.operation o hl hr)

theorem Cond.derives_words (c : Cond) : Derives .cond c.words (.cond c) := by
  induction c with
  | compare p l r =>
      exact .comparison (.relation p) l.derives_words r.derives_words
  | both l r hl hr => exact .condConnected (.both hl hr)
  | either l r hl hr => exact .condConnected (.either hl hr)
  | negate c hc => exact .condConnected (.negate hc)

mutual

theorem Stmt.derives_words :
    (s : Stmt) → Derives .stmt s.words (.stmt s)
  | .once a => by
      rw [Stmt.words]
      exact .stmtAction (.once a)
  | .times a e => by
      rw [Stmt.words]
      exact .stmtAction (.times a e.derives_words)
  | .loop b => by
      rw [Stmt.words]
      exact .stmtLoop (.loop (.block (Stmt.derives_allWords b)))
  | .whileDo c b => by
      rw [Stmt.words]
      exact .stmtWhile
        (.whileDo c.derives_words (.block (Stmt.derives_allWords b)))
  | .ifThen c b => by
      rw [Stmt.words]
      exact .stmtChoice
        (.ifThen c.derives_words (.block (Stmt.derives_allWords b)))
  | .ifElse c b o => by
      rw [Stmt.words]
      exact .stmtChoice
        (.ifElse c.derives_words (.block (Stmt.derives_allWords b))
          (.block (Stmt.derives_allWords o)))

theorem Stmt.derives_allWords :
    (ss : List Stmt) → Derives .program (Stmt.allWords ss) (.program ⟨ss⟩)
  | [] => by
      rw [Stmt.allWords]
      exact .none
  | s :: ss => by
      rw [Stmt.allWords]
      exact .more (Stmt.derives_words s) (Stmt.derives_allWords ss)

end

/-- The words of a tree derive it. -/
theorem Tree.derives_words (t : Tree) : Derives t.rule t.words t := by
  cases t with
  | expr e => exact e.derives_words
  | cond c => exact c.derives_words
  | relation r => exact .relation r
  | stmt s => exact s.derives_words
  | block b => exact .block (Stmt.derives_allWords b)
  | program p => exact Stmt.derives_allWords p.statements

-- --------------------------------------------- up to a needless sign

namespace Numeral

/-- Only numerals are tidied. -/
@[simp] theorem tidy_eq {w : String}
    (h : Pattern.number.fits w = false) : tidy w = w := by
  apply tidy_of_ne
  intro hw
  rw [hw] at h
  exact absurd h (by decide)

end Numeral

theorem map_tidy_inParens (ws : List String) :
    (inParens ws).map Numeral.tidy = inParens (ws.map Numeral.tidy) := by
  simp [inParens]

theorem map_tidy_inBraces (ws : List String) :
    (inBraces ws).map Numeral.tidy = inBraces (ws.map Numeral.tidy) := by
  simp [inBraces]

theorem map_tidy_call {w : String} (hw : Pattern.number.fits w = false)
    (u v : List String) :
    (call w u v).map Numeral.tidy
      = call w (u.map Numeral.tidy) (v.map Numeral.tidy) := by
  simp [call, hw, map_tidy_inParens]

/-- Words that derive a tree are its words, but for a minus sign in front
of a zero. -/
theorem Derives.words_eq {rule : Rule} {ws : List String} {t : Tree}
    (h : Derives rule ws t) : t.words = ws.map Numeral.tidy := by
  induction h with
  | number hw =>
      show [Numeral.write (Numeral.value _)] = _
      rw [Numeral.write_value hw]
      rfl
  | exprSensor h ih | exprOperation h ih | condConnected h ih
  | stmtAction h ih | stmtLoop h ih | stmtChoice h ih | stmtWhile h ih =>
      exact ih
  | sensor s => simp [Tree.words, Expr.words]
  | relation r => simp [Tree.words]
  | operation o hl hr ihl ihr =>
      rw [map_tidy_call (by simp), ← ihl, ← ihr]
      rfl
  | comparison hp hl hr ihp ihl ihr =>
      cases hp
      rw [map_tidy_call (by simp), ← ihl, ← ihr]
      rfl
  | both hl hr ihl ihr | either hl hr ihl ihr =>
      rw [map_tidy_call (by simp), ← ihl, ← ihr]
      rfl
  | negate hc ih =>
      rw [List.map_cons, map_tidy_inParens, ← ih, Numeral.tidy_eq (by simp)]
      rfl
  | once a => simp [Tree.words, Stmt.words]
  | times a he ih =>
      simp only [List.map_cons, List.map_append, map_tidy_inParens, ← ih]
      simp [Tree.words, Stmt.words]
  | loop hb ih =>
      rw [List.map_cons, ← ih]
      simp [Tree.words, Stmt.words]
  | whileDo hc hb ihc ihb | ifThen hc hb ihc ihb =>
      rw [List.map_cons, List.map_append, map_tidy_inParens, ← ihc, ← ihb]
      simp [Tree.words, Stmt.words]
  | ifElse hc hb ho ihc ihb iho =>
      rw [List.map_cons, List.map_append, List.map_append, List.map_cons,
        map_tidy_inParens, ← ihc, ← ihb, ← iho]
      simp [Tree.words, Stmt.words]
  | block h ih =>
      rw [map_tidy_inBraces, ← ih]
      rfl
  | none => rfl
  | more hs hss ihs ihss =>
      rw [List.map_append, ← ihs, ← ihss]
      simp [Tree.words, Stmt.allWords]

-- ====================================================== legible words

/-- No numeral among the words has more digits than can be read. -/
def Legible (ws : List String) : Prop :=
  ∀ w ∈ ws, Numeral.isNumeral w = true →
    (Numeral.digits w).length ≤ Numeral.digitLimit

@[simp] theorem legible_nil : Legible [] := fun _ h => by cases h

@[simp] theorem legible_append {u v : List String} :
    Legible (u ++ v) ↔ Legible u ∧ Legible v := by
  constructor
  · intro h
    exact ⟨fun w hw => h w (List.mem_append_left v hw),
      fun w hw => h w (List.mem_append_right u hw)⟩
  · intro h w hw
    rcases List.mem_append.1 hw with hw | hw
    · exact h.1 w hw
    · exact h.2 w hw

theorem legible_singleton {w : String} :
    Legible [w] ↔ (Numeral.isNumeral w = true →
      (Numeral.digits w).length ≤ Numeral.digitLimit) := by
  constructor
  · exact fun h => h w (List.mem_singleton_self w)
  · intro h v hv
    rw [List.mem_singleton.1 hv]
    exact h

/-- Only numerals count. -/
@[simp] theorem legible_cons {w : String} {ws : List String}
    (hw : Pattern.number.fits w = false) :
    Legible (w :: ws) ↔ Legible ws := by
  have hsingle : Legible [w] :=
    legible_singleton.2 fun h => absurd (hw.symm.trans h) (by decide)
  rw [← List.singleton_append, legible_append]
  exact and_iff_right hsingle

@[simp] theorem legible_inParens {ws : List String} :
    Legible (inParens ws) ↔ Legible ws := by
  simp [inParens]

@[simp] theorem legible_inBraces {ws : List String} :
    Legible (inBraces ws) ↔ Legible ws := by
  simp [inBraces]

@[simp] theorem legible_call {w : String} {u v : List String}
    (hw : Pattern.number.fits w = false) :
    Legible (call w u v) ↔ Legible u ∧ Legible v := by
  simp [call, hw]

/-- A prefix of legible words is legible. -/
theorem Legible.of_beginning {u v : List String} (hv : Legible v)
    (h : u <+: v) : Legible u :=
  fun w hw => hv w (h.subset hw)

end RobotLang
