/-
Readings without a number.

An ample reading is meant for as many tokens as there are. Over ample inner
readings a rule is its own definition (`Inner.raised_ample`): what it takes
first leaves fewer tokens, and on those a reading meant for more of them
does the same. So the rules can be followed from token to token, and no
number has to be carried along.

What an ample reading ends with depends on the tokens behind only through
the next word, and for expressions, conditions and blocks not at all: a
phrase of theirs that was read is read in front of anything.
-/
import RobotLang.Proofs.Reading.Exact

namespace RobotLang.Reading

variable {α β : Type}

/-- The reading that is meant for as many tokens as there are. -/
def ample (R : Nat → Reading α) : Reading α := fun ts => R ts.length ts

-- ======================================================== the equations

theorem Agree.ample {R : Nat → Reading α}
    (hR : ∀ {k n m}, k ≤ n → k ≤ m → Agree k (R n) (R m)) (n : Nat) :
    Agree n (R n) (ample R) :=
  fun ts hts => hR hts (Nat.le_refl _) ts (Nat.le_refl _)

/-- An ample reading is what its readings agree with. -/
theorem ample_eq {R : Nat → Reading α} {r : Reading α}
    (h : ∀ n, Agree n (R n) r) : ample R = r :=
  funext fun ts => h ts.length ts (Nat.le_refl _)

/-- The ample readings of the phrases that stand in other phrases. -/
def Inner.ample : Inner where
  expr := Reading.ample Reading.expr
  cond := Reading.ample Reading.cond
  stmt := Reading.ample Reading.stmt
  inside := Reading.ample Reading.inside
  toEnd := Reading.ample Reading.toEnd

theorem Inner.Agree.ample (n : Nat) : Agree n (Inner.upTo n) Inner.ample :=
  ⟨.ample .expr n, .ample .cond n, .ample .stmt n, .ample .inside n,
    .ample .toEnd n⟩

/-- The ample readings are the rules over themselves. -/
theorem Inner.raised_ample : Inner.ample.raised = Inner.ample := by
  have hraised : ∀ n, Agree n (upTo n) ample.raised := by
    intro n
    cases n with
    | zero => exact .raised_at_end ample 0
    | succ n => exact (Agree.ample n).raised
  have hexpr : ample.expr = ample.raised.expr :=
    ample_eq fun n => (hraised n).expr
  have hcond : ample.cond = ample.raised.cond :=
    ample_eq fun n => (hraised n).cond
  have hstmt : ample.stmt = ample.raised.stmt :=
    ample_eq fun n => (hraised n).stmt
  have hinside : ample.inside = ample.raised.inside :=
    ample_eq fun n => (hraised n).inside
  have htoEnd : ample.toEnd = ample.raised.toEnd :=
    ample_eq fun n => (hraised n).toEnd
  exact Inner.ext hexpr.symm hcond.symm hstmt.symm hinside.symm htoEnd.symm

theorem ample_expr : ample expr = exprOver (ample expr) :=
  (congrArg Inner.expr Inner.raised_ample).symm

theorem ample_cond :
    ample cond = condOver (ample expr) (ample cond) :=
  (congrArg Inner.cond Inner.raised_ample).symm

theorem ample_stmt :
    ample stmt = stmtOver (ample expr) (ample cond) (ample inside) :=
  (congrArg Inner.stmt Inner.raised_ample).symm

theorem ample_block :
    ample (fun n => block (inside n)) = block (ample inside) :=
  ample_eq fun n =>
    (Agree.block (.inside n) (.ample .inside n)).mono (Nat.le_succ n)

theorem ample_inside_close {t : Token} (ht : t.value = Mark.closeBrace.word)
    (ts : List Token) : ample inside (t :: ts) = .ok [] (t :: ts) := by
  show inside (ts.length + 1) (t :: ts) = _
  rw [Reads.inside_cons, if_pos (beq_iff_eq.2 ht)]
  rfl

theorem ample_inside_cons {t : Token} (ht : t.value ≠ Mark.closeBrace.word)
    (ts : List Token) :
    ample inside (t :: ts)
      = (do return (← ample stmt) :: (← ample inside) : Reading (List Stmt))
        (t :: ts) := by
  have hraised : ample inside (t :: ts) = Inner.ample.raised.inside (t :: ts) :=
    congrFun (congrArg Inner.inside Inner.raised_ample.symm) (t :: ts)
  have hclose : ¬ (t.value == Mark.closeBrace.word) = true :=
    mt beq_iff_eq.1 ht
  rw [hraised, ample_stmt]
  show (if (t.value == Mark.closeBrace.word) = true then _ else _ :
    Reading (List Stmt)) (t :: ts) = _
  rw [if_neg hclose]
  rfl

theorem ample_toEnd_cons (t : Token) (ts : List Token) :
    ample toEnd (t :: ts)
      = (do return (← ample stmt) :: (← ample toEnd) : Reading (List Stmt))
        (t :: ts) := by
  have hraised : ample toEnd (t :: ts) = Inner.ample.raised.toEnd (t :: ts) :=
    congrFun (congrArg Inner.toEnd Inner.raised_ample.symm) (t :: ts)
  rw [hraised, ample_stmt]
  rfl

-- ============================================================ readings

theorem read_program :
    Rule.program.read = do return .program (← ample program) := rfl

theorem read_stmt : Rule.stmt.read = do return .stmt (← ample stmt) := rfl

theorem read_cond : Rule.cond.read = do return .cond (← ample cond) := rfl

theorem read_expr : Rule.expr.read = do return .expr (← ample expr) := rfl

theorem read_block :
    Rule.block.read = do return .block (← block (ample inside)) := by
  rw [← ample_block]
  rfl

theorem ample_program :
    ample program = do begin; return ⟨← ample toEnd⟩ :=
  ample_eq fun n => .behind .begin fun _ =>
    .bind (.ample .toEnd n) (.toEnd n) fun _ => .refl n _

-- ================================================ what comes behind them

/-- The reading leaves a final part of its tokens, and what stands behind
a value matters only through the next word. -/
structure Steady (r : Reading α) : Prop where
  suffix : ∀ ts, left (r ts) <:+ ts
  value : ∀ {taken rest rest' a}, r (taken ++ rest) = .ok a rest →
    nextWord rest = nextWord rest' → r (taken ++ rest') = .ok a rest'

theorem Steady.suffix_of_ok {r : Reading α} (hr : Steady r)
    {ts rest : List Token} {a : α} (h : r ts = .ok a rest) : rest <:+ ts := by
  have hsuffix := hr.suffix ts
  rw [h] at hsuffix
  exact hsuffix

theorem Plain.steady {r : Reading α} (hr : Plain r) : Steady r where
  suffix := hr.left_suffix
  value := by
    intro taken rest rest' a h hnext
    obtain ⟨halike, hleft⟩ := hr.outcome_alike rfl hnext (by rw [h]; rfl)
    rw [h] at halike
    exact eq_ok_of_alike halike hleft

theorem steady_ample {R : Nat → Reading α} (hplain : ∀ n, Plain (R n))
    (hR : ∀ {k n m}, k ≤ n → k ≤ m → Agree k (R n) (R m)) :
    Steady (ample R) where
  suffix := fun ts => (hplain ts.length).left_suffix ts
  value := by
    intro taken rest rest' a h hnext
    -- both readings with enough for the longer of the two
    let n := max (taken ++ rest).length (taken ++ rest').length
    have hn := (Agree.ample hR n) (taken ++ rest) (Nat.le_max_left ..)
    have hn' := (Agree.ample hR n) (taken ++ rest') (Nat.le_max_right ..)
    rw [← hn] at h
    rw [← hn']
    exact (hplain n).steady.value h hnext

theorem steady_expr : Steady (ample expr) := steady_ample .expr .expr

theorem steady_cond : Steady (ample cond) := steady_ample .cond .cond

theorem steady_stmt : Steady (ample stmt) := steady_ample .stmt .stmt

theorem steady_inside : Steady (ample inside) := steady_ample .inside .inside

theorem steady_toEnd : Steady (ample toEnd) := steady_ample .toEnd .toEnd

theorem steady_block : Steady (block (ample inside)) := by
  rw [← ample_block]
  refine steady_ample (fun n => .block (.inside n)) fun {k n m} hn hm => ?_
  exact (Agree.block (.inside n) (.inside hn hm)).mono (Nat.le_succ k)

/-- What was read as a value is read so in front of anything. -/
def Settled (r : Reading α) : Prop :=
  ∀ {taken rest a}, r (taken ++ rest) = .ok a rest →
    ∀ more, r (taken ++ more) = .ok a more

/-- Only what follows a statement or a program matters to it. -/
theorem settled_of_rule {rule : Rule} {s : Reading α} {tree : α → Tree}
    (hread : rule.read = do return tree (← s))
    (htree : ∀ a b, tree a = tree b → a = b) (hprogram : rule ≠ .program)
    (hstmt : rule.widest ≠ .stmt) : Settled s := by
  intro taken rest a h more
  have hrule : rule.read (taken ++ rest) = .ok (tree a) rest := by
    rw [hread]
    exact bind_eq_ok_iff.2 ⟨a, rest, h, rfl⟩
  obtain ⟨taken', htaken, hphrase, -⟩ :=
    (Rule.upTo_ok_iff hprogram (Nat.le_refl _)).1 hrule
  obtain rfl := List.append_cancel_right htaken
  have hkind : (tree a).rule = rule.widest := hphrase.1.rule_eq
  have hmore : rule.read (taken ++ more) = .ok (tree a) more := by
    refine (Rule.upTo_ok_iff hprogram (Nat.le_refl _)).2
      ⟨taken, rfl, hphrase, fun c b hchoice => absurd ?_ hstmt⟩
    rw [← hkind, hchoice]
    rfl
  rw [hread] at hmore
  obtain ⟨b, mid, hb, hmid⟩ := bind_eq_ok_iff.1 hmore
  injection hmid with hab hrest
  rw [hb, htree _ _ hab, hrest]

theorem settled_expr : Settled (ample expr) :=
  settled_of_rule read_expr (fun _ _ => Tree.expr.inj) (by decide)
    (by decide)

theorem settled_cond : Settled (ample cond) :=
  settled_of_rule read_cond (fun _ _ => Tree.cond.inj) (by decide)
    (by decide)

theorem settled_block : Settled (block (ample inside)) :=
  settled_of_rule read_block (fun _ _ => Tree.block.inj) (by decide)
    (by decide)

-- -------------------------------------------------- what a block encloses

/-- Statements between braces are read up to the end or a closing brace. -/
theorem nextWord_of_inside {ts rest : List Token} {ss : List Stmt}
    (h : ample inside ts = .ok ss rest) :
    rest = [] ∨ nextWord rest = some Mark.closeBrace.word := by
  cases ts with
  | nil =>
      cases h
      exact .inl rfl
  | cons t ts =>
      by_cases ht : t.value = Mark.closeBrace.word
      · rw [ample_inside_close ht] at h
        cases h
        exact .inr (congrArg some ht)
      · rw [ample_inside_cons ht] at h
        obtain ⟨s, mid, hs, h⟩ := bind_eq_ok_iff.1 h
        obtain ⟨ss', rest', hss, h⟩ := bind_eq_ok_iff.1 h
        cases h
        have hlt := Takes.of_follows (.stmt _) (by decide) _ _ _ hs
        exact nextWord_of_inside hss
termination_by ts.length
decreasing_by
  subst_vars
  exact hlt

/-- Statements that were read up to the end are read so in front of a
closing brace. -/
theorem inside_before_close {taken rest : List Token} {ss : List Stmt}
    (h : ample inside (taken ++ rest) = .ok ss rest) {t : Token}
    (ht : t.value = Mark.closeBrace.word) (more : List Token) :
    ample inside (taken ++ t :: more) = .ok ss (t :: more) := by
  obtain ⟨taken', htaken, hderives, hlegible⟩ := (Follows.inside _).ok h
  obtain rfl := List.append_cancel_right htaken
  have hlen : (taken.map Token.value).length
      ≤ (taken ++ t :: more).length := by
    rw [List.length_map, List.length_append]
    exact Nat.le_add_right _ _
  have hreads := Reads.inside_of_within (hderives.reads ⟨hlen, hlegible⟩)
  exact hreads taken (t :: more) rfl (.inr (congrArg some ht))

end RobotLang.Reading
