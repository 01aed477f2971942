/-
The rules account for where they stop.

A phrase has to begin, and its first word decides on a form of it or is
refused. What is left to read behind the first word is a sequence of marks
and inner phrases. So a rule accounts for its stops on any tokens if its
inner phrases do on fewer, and the rules do by induction on that number:
first the expressions, then the conditions, and then the statements
together with the blocks that they contain.
-/
import RobotLang.Proofs.Reading.Accounts

namespace RobotLang.Reading

variable {k : Nat} {t : Token}

/-- A rule faces itself. -/
theorem faces_self {α : Type} {rule : Rule} {s : Reading α}
    {tree : α → Tree} (h : rule.read = do return tree (← s)) :
    Faces s [] rule := by
  refine ⟨α, tree, s, pure, h, fun _ ts => List.suffix_refl ts,
    fun more => ?_⟩
  rw [bind_pure]
  rfl

/-- A word with a meaning is taken for it. -/
theorem require_ok {α : Type} {meaning : String → Option α} {a : α}
    (h : meaning t.value = some a) (reason : Reason) (ts : List Token) :
    require meaning reason (t :: ts) = .ok a ts := by
  rw [require_cons, h]

-- ========================================================= expressions

/-- What is left to read behind a word that has two operands. -/
def operands {α : Type} (reason : Reason) (g : Expr → Expr → α) :
    Reading α := do
  mark .openParen .noOpenParen
  let left ← ample expr
  mark .comma reason
  let right ← ample expr
  mark .closeParen .noCloseParen
  return g left right

theorem accounts_operands {α : Type} (h : Accounts k (ample expr))
    (reason : Reason)
    (hreason : ∀ {next faces} {grants : String → Prop},
      grants Mark.comma.word → reason.Truthful next faces grants)
    (g : Expr → Expr → α) : Accounts k (operands reason g) := by
  refine .mark_bind (fun h => h) ?_
  refine h.bind_settled steady_expr settled_expr fun l => ?_
  refine .mark_bind hreason ?_
  refine h.bind_settled steady_expr settled_expr fun r => ?_
  exact .mark_bind (fun h => h) (.pure _)

/-- What an expression reads on behind its first word. -/
theorem expr_forms (h : Accounts k (ample expr))
    (ht : Pattern.number.fits t.value = true
      ∨ Pattern.sensor.fits t.value = true
      ∨ Pattern.operation.fits t.value = true) :
    ∃ s, Accounts k s ∧ ∀ ts, ample expr (t :: ts) = s ts := by
  have hform (ts) : ample expr (t :: ts) = exprOver (ample expr) (t :: ts) :=
    congrFun ample_expr _
  rcases ht with hnumber | hsensor | hoperation
  · have hw : Numeral.isNumeral t.value = true := hnumber
    by_cases hlong : Numeral.digitLimit < (Numeral.digits t.value).length
    · refine ⟨throw (.tooLong (Numeral.digits t.value).length),
        .tooLong _, fun ts => ?_⟩
      rw [hform, exprOver_of_number hw, bind_error]
      · rfl
      · rw [numeral_cons, if_pos hw, if_pos hlong]
    · refine ⟨pure (.number (Numeral.value t.value)), .pure _,
        fun ts => ?_⟩
      rw [hform, exprOver_of_number hw, bind_ok]
      rw [numeral_cons, if_pos hw, if_neg hlong]
  · obtain ⟨x, hx⟩ := Option.isSome_iff_exists.1 hsensor
    refine ⟨pure (.sensor x), .pure _, fun ts => ?_⟩
    rw [hform, exprOver_of_sensor hsensor, sensor, begin_cons,
      bind_ok (require_ok hx _ ts)]
  · obtain ⟨o, ho⟩ := Option.isSome_iff_exists.1 hoperation
    refine ⟨operands (.noCommaIn o) (.arith o),
      accounts_operands h (.noCommaIn o) (fun h => h) _, fun ts => ?_⟩
    rw [hform, exprOver_of_operation hoperation, operation, begin_cons,
      bind_ok (require_ok ho _ ts)]
    rfl

theorem expr_refuses
    (hnumber : Pattern.number.fits t.value ≠ true)
    (hsensor : Pattern.sensor.fits t.value ≠ true)
    (hoperation : Pattern.operation.fits t.value ≠ true) (ts : List Token) :
    ample expr (t :: ts) = refuse .notExpression (t :: ts) := by
  rw [ample_expr, exprOver, begin_cons, sees_cons, if_neg hnumber,
    sees_cons, if_neg hsensor, sees_cons, if_neg hoperation]

theorem accounts_expr (k : Nat) : Accounts k (ample expr) := by
  induction k with
  | zero => exact .zero steady_expr.suffix
  | succ k ih =>
      have hfaces : Faces (ample expr) [] .expr := faces_self read_expr
      refine .of_forms (by decide) hfaces rfl fun t => ?_
      by_cases ht : Pattern.number.fits t.value = true
          ∨ Pattern.sensor.fits t.value = true
          ∨ Pattern.operation.fits t.value = true
      · obtain ⟨s, hs, hform⟩ := expr_forms ih ht
        exact .inl ⟨s, hs, fun _ => hfaces, hform⟩
      · rw [not_or, not_or] at ht
        obtain ⟨hnumber, hsensor, hoperation⟩ := ht
        refine .inr ⟨.notExpression,
          expr_refuses hnumber hsensor hoperation, ?_⟩
        intro w _ hw t' ts ht'
        rw [← ht'] at hw
        obtain ⟨s, hs, hform⟩ := expr_forms ih hw
        rw [List.nil_append, hform]
        exact hs.suffix ts

-- ========================================================== conditions

/-- What is left to read of a second condition. -/
theorem accounts_second {β : Type} {f : Cond → Reading β}
    (h : Accounts k (ample cond)) (hf : ∀ c, Accounts k (f c)) :
    Accounts k (connected.second (ample cond) >>= f) := by
  unfold connected.second
  simp only [bind_assoc, pure_bind]
  refine .mark_bind (fun h => h) ?_
  refine h.bind_settled steady_cond settled_cond fun c => ?_
  exact .mark_bind (fun h => h) (hf c)

/-- What is left to read behind a connective. -/
def connection (c : Connective) : Reading Cond := do
  mark .openParen .noOpenParen
  let first ← ample cond
  match c with
  | .not =>
    mark .closeParen .noCloseParen
    return .negate first
  | .and => return .both first (← connected.second (ample cond))
  | .or => return .either first (← connected.second (ample cond))

theorem accounts_connection (h : Accounts k (ample cond))
    (c : Connective) : Accounts k (connection c) := by
  refine .mark_bind (fun h => h) ?_
  refine h.bind_settled steady_cond settled_cond fun l => ?_
  cases c with
  | not => exact .mark_bind (fun h => h) (.pure _)
  | and => exact accounts_second h fun _ => .pure _
  | or => exact accounts_second h fun _ => .pure _

/-- What a condition reads on behind its first word. -/
theorem cond_forms (h : Accounts k (ample cond))
    (ht : Pattern.relation.fits t.value = true
      ∨ Pattern.connective.fits t.value = true) :
    ∃ s, Accounts k s ∧ ∀ ts, ample cond (t :: ts) = s ts := by
  have hform (ts) : ample cond (t :: ts)
      = condOver (ample expr) (ample cond) (t :: ts) :=
    congrFun ample_cond _
  rcases ht with hrelation | hconnective
  · obtain ⟨p, hp⟩ := Option.isSome_iff_exists.1 hrelation
    refine ⟨operands .noComma (.compare p),
      accounts_operands (accounts_expr k) .noComma (fun h => h) _,
      fun ts => ?_⟩
    have hword : relation (t :: ts) = .ok p ts := by
      rw [relation, begin_cons, require_ok hp]
    rw [hform, condOver_of_relation hrelation, comparison, bind_ok hword]
    rfl
  · obtain ⟨c, hc⟩ := Option.isSome_iff_exists.1 hconnective
    refine ⟨connection c, accounts_connection h c, fun ts => ?_⟩
    rw [hform, condOver_of_connective hconnective, connected, begin_cons,
      bind_ok (require_ok hc _ ts)]
    rfl

theorem cond_refuses (hrelation : Pattern.relation.fits t.value ≠ true)
    (hconnective : Pattern.connective.fits t.value ≠ true)
    (ts : List Token) :
    ample cond (t :: ts) = refuse .notCondition (t :: ts) := by
  rw [ample_cond, condOver, begin_cons, sees_cons, if_neg hrelation,
    sees_cons, if_neg hconnective]

theorem accounts_cond (k : Nat) : Accounts k (ample cond) := by
  induction k with
  | zero => exact .zero steady_cond.suffix
  | succ k ih =>
      refine .of_forms (by decide) (faces_self read_cond) rfl fun t => ?_
      by_cases ht : Pattern.relation.fits t.value = true
          ∨ Pattern.connective.fits t.value = true
      · obtain ⟨s, hs, hform⟩ := cond_forms ih ht
        refine .inl ⟨s, hs, fun hw => ?_, hform⟩
        -- no numeral begins a condition
        rw [Pattern.fits_numeral hw, Pattern.fits_numeral hw] at ht
        exact absurd ht (by decide)
      · rw [not_or] at ht
        refine .inr ⟨.notCondition, cond_refuses ht.1 ht.2, ?_⟩
        have hbegin : ∀ w ∈ ["lt", "gt", "eq", "and", "or", "not"],
            Pattern.relation.fits w = true
              ∨ Pattern.connective.fits w = true := by decide
        intro w hw t' ts ht'
        obtain ⟨s, hs, hform⟩ := cond_forms ih (ht' ▸ hbegin w hw)
        rw [List.nil_append, hform]
        exact hs.suffix ts

-- ========================================================== statements

/-- What is left to read behind an action. -/
def ending (a : Action) : Reading Stmt := do
  match Repeatable.ofAction? a with
  | none =>
    mark .semicolon .noSemicolon
    return .once a
  | some r =>
    match ← accept (passing (· == Mark.openParen.word)) with
    | none =>
      mark .semicolon .noSemicolon
      return .once a
    | some _ =>
      let e ← ample expr
      mark .closeParen .noCloseAmount
      mark .semicolon .noSemicolon
      return .times r e

/-- No numeral passes a test for another kind of word. -/
theorem passing_numeral {test : String → Bool} {w : String}
    (hw : Numeral.isNumeral w = true)
    (htest : ∀ v, test v = true → Numeral.isNumeral v = false) :
    passing test w = none := by
  refine if_neg fun h => ?_
  rw [htest w h] at hw
  cases hw

theorem accounts_ending (k : Nat) (a : Action) : Accounts k (ending a) := by
  have hsuffix (ts : List Token) :
      left ((return .once a : Reading Stmt) ts) <:+ ts :=
    List.suffix_refl ts
  have honce : Accounts k (do
      mark .semicolon .noSemicolon
      return .once a : Reading Stmt) := .mark_bind (fun h => h) (.pure _)
  unfold ending
  cases Repeatable.ofAction? a with
  | none => exact honce
  | some r =>
      refine .accept_bind (fun w hw => passing_numeral hw fun v hv => ?_)
        (fun o => ?_) fun rest => .mark hsuffix fun _ => ?_
      · rw [eq_of_beq hv]
        rfl
      · cases o with
        | none => exact honce
        | some w =>
            refine (accounts_expr k).bind_settled steady_expr settled_expr
              fun e => ?_
            exact .mark_bind (fun h => h) (.mark_bind (fun h => h) (.pure _))
      · -- a semicolon could have come instead of an amount
        exact Grants.accept rfl
          ((Grants.mark .semicolon .noSemicolon).bind fun _ => hsuffix)

/-- What is left to read of statements behind an opening brace. -/
def enclosed : Reading Block := do
  let b ← ample inside
  mark .closeBrace .noCloseBrace
  return b

/-- The closing brace is missing only at the end of the tokens, and could
have come there. -/
theorem accounts_enclosed (h : Accounts k (ample inside)) :
    Accounts k enclosed := by
  have hgrants := Grants.mark .closeBrace .noCloseBrace
  have hpure (b : Block) (_ : Unit) (ts : List Token) :
      left ((return b : Reading Block) ts) <:+ ts := List.suffix_refl ts
  have hsuffix (b : Block) (ts : List Token) :
      left ((do
        mark .closeBrace .noCloseBrace
        return b : Reading Block) ts) <:+ ts :=
    (left_bind (hpure b) ts).trans ((Plain.mark _ _).left_suffix ts)
  refine ⟨fun ts => (left_bind hsuffix ts).trans (steady_inside.suffix ts),
    fun {ts} hts => (h.on hts).bind steady_inside hsuffix
      (fun {b mid} hb => ?_) fun {taken rest b} htaken hb => .inr ?_⟩
  · have hmark : AccountsOn (mark .closeBrace .noCloseBrace) mid := by
      refine .mark fun hnext => ?_
      rw [(nextWord_of_inside hb).resolve_right hnext]
      exact ⟨rfl, hgrants⟩
    exact hmark.bind (Plain.mark _ _).steady (hpure b) (fun _ => .pure _)
      fun _ _ => .inr (.pure _ _ _ _)
  · refine .mark (hpure b ()) fun hnext => ?_
    obtain rfl := (nextWord_of_inside hb).resolve_right hnext
    refine ⟨rfl, fun t ts ht => ?_⟩
    rw [htaken] at hb
    rw [bind_ok (inside_before_close hb ht ts)]
    exact hgrants.bind (hpure b) t ts ht

theorem accounts_block (h : Accounts k (ample inside)) :
    Accounts (k + 1) (block (ample inside)) := by
  have hopen {t : Token} (ht : t.value = Mark.openBrace.word) (ts) :
      block (ample inside) (t :: ts) = enclosed ts := by
    rw [block, begin_cons, mark, bind_ok (word_ok ht _ ts)]
    rfl
  refine .of_forms (by decide) (faces_self read_block) rfl fun t => ?_
  by_cases ht : t.value = Mark.openBrace.word
  · exact .inl ⟨enclosed, accounts_enclosed h,
      fun hw => absurd ht (ne_mark hw _), hopen ht⟩
  · refine .inr ⟨.noOpenBrace, fun ts => ?_, fun t' ts ht' => ?_⟩
    · rw [block, begin_cons, mark, bind_error (word_refuses ht _ ts)]
      rfl
    · rw [List.nil_append, hopen ht']
      exact (accounts_enclosed h).suffix ts

/-- What is left to read with a condition between parentheses. -/
theorem accounts_guarded {β : Type} {f : Cond → Reading β}
    (hf : ∀ c, Accounts k (f c)) :
    Accounts k (guarded (ample cond) >>= f) := by
  unfold guarded
  simp only [bind_assoc, pure_bind]
  refine .mark_bind (fun h => h) ?_
  refine (accounts_cond k).bind_settled steady_cond settled_cond fun c => ?_
  exact .mark_bind (fun h => h) (hf c)

/-- What is left to read of a choice behind its word. -/
def chosen : Reading Stmt := do
  let c ← guarded (ample cond)
  let b ← block (ample inside)
  match ← accept (passing Pattern.elseWord.fits) with
  | none => return .ifThen c b
  | some _ => return .ifElse c b (← block (ample inside))

theorem accounts_chosen (h : Accounts k (ample inside)) :
    Accounts k chosen := by
  have hblock := (accounts_block h).mono (Nat.le_succ k)
  refine accounts_guarded fun c => ?_
  refine hblock.bind_settled steady_block settled_block fun b => ?_
  refine .accept_bind (fun w hw => passing_numeral hw fun v hv => ?_)
    (fun o => ?_) fun rest => .pure _ _ _ _
  · obtain rfl : v = "else" := of_decide_eq_true hv
    rfl
  · cases o with
    | none => exact .pure _
    | some w => exact hblock.map steady_block _

/-- What a statement reads on behind its first word. -/
theorem stmt_forms (h : Accounts k (ample inside))
    (ht : Pattern.action.fits t.value = true
      ∨ Pattern.loopWord.fits t.value = true
      ∨ Pattern.ifWord.fits t.value = true
      ∨ Pattern.whileWord.fits t.value = true) :
    ∃ s, Accounts k s ∧ ∀ ts, ample stmt (t :: ts) = s ts := by
  have hform (ts) : ample stmt (t :: ts)
      = stmtOver (ample expr) (ample cond) (ample inside) (t :: ts) :=
    congrFun ample_stmt _
  have hblock := (accounts_block h).mono (Nat.le_succ k)
  rcases ht with haction | hloop | hif | hwhile
  · obtain ⟨a, ha⟩ := Option.isSome_iff_exists.1 haction
    refine ⟨ending a, accounts_ending k a, fun ts => ?_⟩
    rw [hform, stmtOver_of_action haction, action, begin_cons,
      bind_ok (require_ok ha _ ts)]
    rfl
  · have ht : t.value = "loop" := of_decide_eq_true hloop
    refine ⟨_, hblock.map steady_block .loop, fun ts => ?_⟩
    rw [hform, stmtOver_of_loop hloop, loop, begin_cons,
      bind_ok (word_ok ht _ ts)]
  · have ht : t.value = "if" := of_decide_eq_true hif
    refine ⟨chosen, accounts_chosen h, fun ts => ?_⟩
    rw [hform, stmtOver_of_if hif, choice, begin_cons,
      bind_ok (word_ok ht _ ts)]
    rfl
  · have ht : t.value = "while" := of_decide_eq_true hwhile
    refine ⟨_, accounts_guarded fun c => hblock.map steady_block (.whileDo c),
      fun ts => ?_⟩
    rw [hform, stmtOver_of_while hwhile, whileDo, begin_cons,
      bind_ok (word_ok ht _ ts)]

theorem stmt_refuses (haction : Pattern.action.fits t.value ≠ true)
    (hloop : Pattern.loopWord.fits t.value ≠ true)
    (hif : Pattern.ifWord.fits t.value ≠ true)
    (hwhile : Pattern.whileWord.fits t.value ≠ true) (ts : List Token) :
    ample stmt (t :: ts)
      = refuse (.unknownStatement t.value) (t :: ts) := by
  rw [ample_stmt, stmtOver, begin_cons, sees_cons, if_neg haction,
    sees_cons, if_neg hloop, sees_cons, if_neg hif, sees_cons,
    if_neg hwhile]
  rfl

/-- A statement reads on behind its first word or refuses it. -/
theorem stmt_cases (h : Accounts k (ample inside)) (t : Token) :
    (∃ s, Accounts k s ∧ Numeral.isNumeral t.value ≠ true
        ∧ ∀ ts, ample stmt (t :: ts) = s ts)
      ∨ ∀ ts, ample stmt (t :: ts)
        = refuse (.unknownStatement t.value) (t :: ts) := by
  by_cases ht : Pattern.action.fits t.value = true
      ∨ Pattern.loopWord.fits t.value = true
      ∨ Pattern.ifWord.fits t.value = true
      ∨ Pattern.whileWord.fits t.value = true
  · obtain ⟨s, hs, hform⟩ := stmt_forms h ht
    refine .inl ⟨s, hs, fun hw => ?_, hform⟩
    -- no numeral begins a statement
    simp only [Pattern.fits_numeral hw] at ht
    exact absurd ht (by decide)
  · rw [not_or, not_or, not_or] at ht
    exact .inr (stmt_refuses ht.1 ht.2.1 ht.2.2.1 ht.2.2.2)

theorem accounts_stmt (h : Accounts k (ample inside)) :
    Accounts (k + 1) (ample stmt) := by
  refine .of_forms (by decide) (faces_self read_stmt) rfl fun t => ?_
  rcases stmt_cases h t with ⟨s, hs, hw, hform⟩ | hrefuses
  · exact .inl ⟨s, hs, fun h => absurd h hw, hform⟩
  · exact .inr ⟨.unknownStatement t.value, hrefuses, rfl⟩

-- ============================================================== series

/-- What begins with a statement is rejected at once only in front of a word
that begins none. -/
theorem stmt_at_once {β : Type} {f : Stmt → Reading β}
    (hf : ∀ s ts, left (f s ts) <:+ ts) (t : Token) (ts : List Token)
    (faces : Rule → Prop) (grants : String → Prop) :
    AtOnce (ample stmt >>= f) (t :: ts) faces grants := by
  have hzero : Accounts 0 (ample inside) := .zero steady_inside.suffix
  rcases stmt_cases hzero t with ⟨s, hs, hw, hform⟩ | hrefuses
  · refine ⟨fun {e} he => ?_, fun {t' ts'} hrest ht _ => ?_⟩
    · have hsuffix := left_bind (r := ample stmt) hf (t :: ts)
      rw [he, hform] at hsuffix
      exact absurd (hsuffix.trans (hs.suffix ts)) (not_suffix_tail t [] ts)
    · obtain ⟨rfl, -⟩ := List.cons.inj hrest
      exact hw ht
  · have hbind := bind_error (f := f) (hrefuses ts)
    refine ⟨fun {e} he => ?_, fun {t' ts'} hrest _ hleft => ?_⟩
    · rw [hbind] at he
      cases he
      exact rfl
    · obtain ⟨rfl, rfl⟩ := List.cons.inj hrest
      rw [hbind] at hleft
      exact absurd hleft (not_suffix_tail t [] ts)

/-- Statements in sequence: they end where there are no more, and go on with
one more and those behind it. -/
structure Sequence (R : Reading (List Stmt)) (stops : Token → Prop) :
    Prop where
  steady : Steady R
  nil : R [] = .ok [] []
  stop : ∀ {t}, stops t → ∀ ts, R (t :: ts) = .ok [] (t :: ts)
  cons : ∀ {t}, ¬ stops t → ∀ ts,
    R (t :: ts)
      = (do return (← ample stmt) :: (← R) : Reading (List Stmt)) (t :: ts)

theorem sequence_inside :
    Sequence (ample inside) (·.value = Mark.closeBrace.word) :=
  ⟨steady_inside, rfl, ample_inside_close, ample_inside_cons⟩

theorem sequence_toEnd : Sequence (ample toEnd) fun _ => False :=
  ⟨steady_toEnd, rfl, False.elim, fun _ => ample_toEnd_cons _⟩

namespace Sequence

variable {R : Reading (List Stmt)} {stops : Token → Prop}

/-- What comes behind a statement. -/
theorem suffix_more (h : Sequence R stops) (s : Stmt) (ts : List Token) :
    left ((do return s :: (← R) : Reading (List Stmt)) ts) <:+ ts :=
  (left_bind (fun _ => List.suffix_refl) ts).trans (h.steady.suffix ts)

theorem at_once (h : Sequence R stops) (rest : List Token)
    (faces : Rule → Prop) (grants : String → Prop) :
    AtOnce R rest faces grants := by
  have hstill (h : R rest = .ok [] rest) : AtOnce R rest faces grants := by
    refine ⟨fun {e} he => ?_, fun {t ts} hrest _ hleft => ?_⟩
    · rw [h] at he
      cases he
    · rw [h, hrest] at hleft
      exact absurd hleft (not_suffix_tail t [] ts)
  cases rest with
  | nil => exact hstill h.nil
  | cons t ts =>
      by_cases ht : stops t
      · exact hstill (h.stop ht ts)
      · have hmore := stmt_at_once h.suffix_more t ts faces grants
        exact ⟨by rw [h.cons ht]; exact hmore.rejected,
          by rw [h.cons ht]; exact hmore.numeral⟩

/-- If statements account for their stops on fewer tokens and a statement
does, more statements do. -/
theorem accounts (h : Sequence R stops)
    (hstmt : Accounts (k + 1) (ample stmt)) (hR : Accounts k R) :
    Accounts (k + 1) R where
  suffix := h.steady.suffix
  on {ts} hts := by
    have hstill (h : R ts = .ok [] ts) : AccountsOn R ts :=
      .of_still (by rw [h]; rfl) fun f rest he => by
        rw [h] at he
        cases he
    cases ts with
    | nil => exact hstill h.nil
    | cons t ts =>
        by_cases ht : stops t
        · exact hstill (h.stop ht ts)
        · refine .congr_head (h.cons ht) ?_ (stmt_at_once h.suffix_more ..)
          refine (hstmt.on hts).bind steady_stmt h.suffix_more
            (fun {s mid} hs => ?_) fun _ _ => .inr ((h.at_once ..).map _)
          have hlt := Takes.of_follows (.stmt _) (by decide) _ _ _ hs
          exact (hR.map h.steady _).on
            (Nat.lt_of_lt_of_le hlt (Nat.le_of_lt_succ hts))

end Sequence

theorem accounts_inside (k : Nat) : Accounts k (ample inside) := by
  induction k with
  | zero => exact .zero steady_inside.suffix
  | succ k ih => exact sequence_inside.accounts (accounts_stmt ih) ih

theorem accounts_toEnd (k : Nat) : Accounts k (ample toEnd) := by
  induction k with
  | zero => exact .zero steady_toEnd.suffix
  | succ k ih =>
      exact sequence_toEnd.accounts (accounts_stmt (accounts_inside k)) ih

-- ============================================================ programs

theorem program_cons (t : Token) (ts : List Token) :
    ample program (t :: ts)
      = (do return ⟨← ample toEnd⟩ : Reading Program) (t :: ts) := by
  rw [ample_program, begin_cons]

/-- A program has to begin with a statement. -/
theorem faces_program : Faces (ample program) [] .stmt := by
  refine ⟨Stmt, .stmt, ample stmt,
    fun s => do return ⟨s :: (← ample toEnd)⟩, read_stmt, fun s ts => ?_,
    fun more => ?_⟩
  · exact (left_bind (fun _ => List.suffix_refl) ts).trans
      (steady_toEnd.suffix ts)
  · cases more with
    | nil => rfl
    | cons t ts =>
        rw [List.nil_append, program_cons,
          bind_congr_at (ample_toEnd_cons t ts)]
        simp only [bind_assoc, pure_bind]

/-- A program accounts for its stops. -/
theorem accounts_program (k : Nat) : Accounts k (ample program) where
  suffix ts := (Plain.program ts.length).left_suffix ts
  on {ts} hts := by
    cases ts with
    | nil => exact .of_refused rfl ⟨rfl, .stmt, by decide, faces_program⟩
    | cons t ts =>
        have htoEnd := (accounts_toEnd k).map steady_toEnd Program.mk
        exact .congr_head (program_cons t) (htoEnd.on hts)
          ((sequence_toEnd.at_once ..).map _)

/-- A rule for phrases of several kinds accounts for its stops. -/
theorem accounts_read {rule : Rule} (hrule : rule.opening? = none)
    (k : Nat) : Accounts k rule.read := by
  have hk := Nat.le_succ k
  cases rule with
  | action | loop | whileDo | choice | relation | connected | sensor
  | operation => cases hrule
  | program =>
      rw [read_program]
      exact (accounts_program k).map (steady_ample .program .program) _
  | stmt =>
      rw [read_stmt]
      exact ((accounts_stmt (accounts_inside k)).mono hk).map steady_stmt _
  | block =>
      rw [read_block]
      exact ((accounts_block (accounts_inside k)).mono hk).map steady_block _
  | cond =>
      rw [read_cond]
      exact (accounts_cond k).map steady_cond _
  | expr =>
      rw [read_expr]
      exact (accounts_expr k).map steady_expr _

end RobotLang.Reading
