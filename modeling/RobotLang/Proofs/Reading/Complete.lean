/-
Every phrase is read.

Legible words that derive a tree from a rule are taken by the rule's
reading for that tree, by induction on the derivation: each step of it is
one form of phrase. The number of tokens that a reading is meant for has
to reach the number of words; a rule that takes a word before it comes to
its inner phrases needs one less.
-/
import RobotLang.Proofs.Grammar.Opening
import RobotLang.Proofs.Reading.Forms

namespace RobotLang

-- ====================================================== inside others

namespace Rule

/-- How many words a rule takes before it comes to its inner phrases. -/
def own : Rule → Nat
  | .program | .stmt | .cond | .expr => 0
  | _ => 1

/-- The reading of a phrase inside another one. The statements of a
program stand for those of a block. -/
def within (n : Nat) : Rule → Reading Tree
  | .program => return .program ⟨← Reading.inside n⟩
  | rule => rule.upTo n

end Rule

namespace Reading.Reads

variable {n : Nat} {ws : List String}

theorem expr_of_within {e : Expr}
    (h : Reads (Rule.expr.within n) ws (.expr e) (Tree.expr e).Precedes) :
    Reads (expr n) ws e Anything :=
  (of_map (fun _ _ => Tree.expr.inj) h).mono fun _ _ => trivial

theorem cond_of_within {c : Cond}
    (h : Reads (Rule.cond.within n) ws (.cond c) (Tree.cond c).Precedes) :
    Reads (cond n) ws c Anything :=
  (of_map (fun _ _ => Tree.cond.inj) h).mono fun _ _ => trivial

theorem block_of_within {b : Block}
    (h : Reads (Rule.block.within n) ws (.block b)
      (Tree.block b).Precedes) :
    Reads (Reading.block (inside n)) ws b Anything :=
  (of_map (fun _ _ => Tree.block.inj) h).mono fun _ _ => trivial

theorem stmt_of_within {s : Stmt}
    (h : Reads (Rule.stmt.within n) ws (.stmt s) (Tree.stmt s).Precedes) :
    Reads (stmt n) ws s (Tree.stmt s).Precedes :=
  of_map (fun _ _ => Tree.stmt.inj) h

theorem inside_of_within {ss : List Stmt}
    (h : Reads (Rule.program.within n) ws (.program ⟨ss⟩)
      (Tree.program ⟨ss⟩).Precedes) :
    Reads (inside n) ws ss (Tree.program ⟨ss⟩).Precedes :=
  of_map (fun _ _ h => Program.mk.inj (Tree.program.inj h)) h

end Reading.Reads

-- ================================================ words within a bound

/-- Legible words, and at most so many. -/
def LegibleUpTo (n : Nat) (ws : List String) : Prop :=
  ws.length ≤ n ∧ Legible ws

namespace LegibleUpTo

variable {n : Nat} {w : String} {u v ws : List String}

/-- Behind the first word there are fewer. -/
theorem inner (h : LegibleUpTo (n + 1) (w :: ws)) (hu : u <:+: ws) :
    LegibleUpTo n u := by
  constructor
  · have hlen : ws.length + 1 ≤ n + 1 := h.1
    have hle := hu.length_le
    omega
  · exact fun x hx => h.2 x (List.mem_cons_of_mem w (hu.subset hx))

theorem succ (h : LegibleUpTo n ws) : LegibleUpTo (n + 1) ws :=
  ⟨Nat.le_succ_of_le h.1, h.2⟩

theorem left (h : LegibleUpTo n (u ++ v)) : LegibleUpTo n u :=
  ⟨Nat.le_trans (List.sublist_append_left u v).length_le h.1,
    (legible_append.1 h.2).1⟩

theorem right (h : LegibleUpTo n (u ++ v)) : LegibleUpTo n v :=
  ⟨Nat.le_trans (List.sublist_append_right u v).length_le h.1,
    (legible_append.1 h.2).2⟩

theorem call (h : LegibleUpTo (n + 1) (call w u v)) :
    LegibleUpTo n u ∧ LegibleUpTo n v := by
  rw [call_eq] at h
  constructor
  · exact h.inner ⟨[Mark.openParen.word], _, rfl⟩
  · refine h.inner ⟨Mark.openParen.word :: (u ++ [Mark.comma.word]),
      [Mark.closeParen.word], ?_⟩
    simp

theorem parens (h : LegibleUpTo (n + 1) (w :: (inParens u ++ v))) :
    LegibleUpTo n u ∧ LegibleUpTo n v := by
  constructor
  · refine h.inner ⟨[Mark.openParen.word], Mark.closeParen.word :: v, ?_⟩
    simp [inParens]
  · exact h.inner (List.suffix_append _ v).isInfix

theorem braces (h : LegibleUpTo (n + 1) (inBraces u)) :
    LegibleUpTo n u :=
  h.inner (List.prefix_append u _).isInfix

end LegibleUpTo

-- ====================================================== by derivation

namespace Derives

open Reading

/-- A phrase is read as the form that its first word decides on. -/
theorem reads_as {α : Type} {rule : Rule} {ws : List String} {t : Tree}
    {p : Pattern} {n : Nat} {R S : Nat → Reading α} {g : α → Tree}
    {F : Option String → Prop} (h : Derives rule ws t)
    (hp : rule.opening? = some p) (hws : LegibleUpTo n ws)
    (hRS : ∀ m t ts, p.fits t.value = true →
      R (m + 1) (t :: ts) = S m (t :: ts))
    (hS : ∀ m, LegibleUpTo (m + 1) ws →
      Reads (do return g (← S m)) ws t F) :
    Reads (do return g (← R n)) ws t F := by
  obtain ⟨w, us, rfl, hw⟩ := h.eq_cons hp
  have hpos : 0 < n := Nat.lt_of_lt_of_le us.length.succ_pos hws.1
  obtain ⟨m, rfl⟩ := Nat.exists_eq_add_one.2 hpos
  refine Reads.of_form (fun t ts ht => ?_) (hS m hws)
  exact hRS m t ts (ht ▸ hw)

/-- Legible words that derive a tree are read as that tree, in front of
anything that may follow it. -/
theorem reads {rule : Rule} {ws : List String} {t : Tree}
    (h : Derives rule ws t) {n : Nat}
    (hws : LegibleUpTo (n + rule.own) ws) :
    Reads (rule.within n) ws t t.Precedes := by
  induction h generalizing n with
  | @number w hw =>
      obtain ⟨hn, hlegible⟩ := hws
      obtain ⟨n, rfl⟩ := Nat.exists_eq_add_one.2 hn
      refine Reads.of_form (fun t ts ht => ?_)
        (((Reads.numeral hw hlegible).map _).map _)
      exact exprOver_of_number (ht ▸ hw)
  | exprSensor h ih =>
      exact h.reads_as rfl hws (fun _ _ _ => exprOver_of_sensor)
        fun _ => ih
  | exprOperation h ih =>
      exact h.reads_as rfl hws (fun _ _ _ => exprOver_of_operation)
        fun _ => ih
  | condConnected h ih =>
      exact h.reads_as rfl hws (fun _ _ _ => condOver_of_connective)
        fun _ => ih
  | stmtAction h ih =>
      exact h.reads_as rfl hws (fun _ _ _ => stmtOver_of_action)
        fun _ => ih
  | stmtLoop h ih =>
      exact h.reads_as rfl hws (fun _ _ _ => stmtOver_of_loop)
        fun _ => ih
  | stmtChoice h ih =>
      exact h.reads_as rfl hws (fun _ _ _ => stmtOver_of_if)
        fun _ => ih
  | stmtWhile h ih =>
      exact h.reads_as rfl hws (fun _ _ _ => stmtOver_of_while)
        fun _ => ih
  | sensor s => exact (Reads.sensor s).map _
  | relation p => exact (Reads.relation p).map _
  | once a => exact (Reads.once a).map _
  | operation o hl hr ihl ihr =>
      obtain ⟨hu, hv⟩ := hws.call
      have hl' := Reads.expr_of_within (ihl hu)
      have hr' := Reads.expr_of_within (ihr hv)
      exact (Reads.operation hl' hr' o).map _
  | comparison hp hl hr ihp ihl ihr =>
      cases hp
      obtain ⟨n, rfl⟩ := Nat.exists_eq_add_one.2
        (Nat.lt_of_lt_of_le (Nat.succ_pos _) hws.1)
      obtain ⟨hu, hv⟩ := hws.call
      have hl' := Reads.expr_of_within (ihl hu)
      have hr' := Reads.expr_of_within (ihr hv)
      refine Reads.of_form (fun t ts ht => ?_)
        ((Reads.comparison hl' hr' _).map _)
      exact condOver_of_relation (by rw [ht]; simp)
  | both hl hr ihl ihr =>
      obtain ⟨hu, hv⟩ := hws.call
      have hl' := Reads.cond_of_within (ihl hu)
      have hr' := Reads.cond_of_within (ihr hv)
      exact (Reads.both hl' hr').map _
  | either hl hr ihl ihr =>
      obtain ⟨hu, hv⟩ := hws.call
      have hl' := Reads.cond_of_within (ihl hu)
      have hr' := Reads.cond_of_within (ihr hv)
      exact (Reads.either hl' hr').map _
  | @negate u c hc ih =>
      rw [← List.append_nil (inParens u)] at hws
      have hc' := Reads.cond_of_within (ih hws.parens.1)
      exact (Reads.negate hc').map _
  | times a he ih =>
      have he' := Reads.expr_of_within (ih hws.parens.1)
      exact (Reads.times he' a).map _
  | loop hb ih =>
      have hv := hws.inner List.infix_rfl
      have hb' := Reads.block_of_within (ih hv.succ)
      exact (Reads.loop hb').map _
  | whileDo hc hb ihc ihb =>
      obtain ⟨hu, hv⟩ := hws.parens
      have hc' := Reads.cond_of_within (ihc hu)
      have hb' := Reads.block_of_within (ihb hv.succ)
      exact (Reads.whileDo hc' hb').map _
  | ifThen hc hb ihc ihb =>
      obtain ⟨hu, hv⟩ := hws.parens
      have hc' := Reads.cond_of_within (ihc hu)
      have hb' := Reads.block_of_within (ihb hv.succ)
      exact (Reads.ifThen hc' hb').map _
  | ifElse hc hb ho ihc ihb iho =>
      obtain ⟨hu, hvw⟩ := hws.parens
      have hw := hvw.right
      have hc' := Reads.cond_of_within (ihc hu)
      have hb' := Reads.block_of_within (ihb hvw.left.succ)
      have ho' := Reads.block_of_within (iho (hw.succ.inner List.infix_rfl).succ)
      exact (Reads.ifElse hc' hb' ho').map _
  | block h ih =>
      have hss := Reads.inside_of_within (ih hws.braces)
      exact (Reads.block hss).map _
  | none => exact (Reads.inside_none n).map _
  | more hs hss ihs ihss =>
      obtain ⟨w, us, rfl, -, hw⟩ := hs.stmt_eq_cons
      obtain ⟨n, rfl⟩ := Nat.exists_eq_add_one.2
        (Nat.lt_of_lt_of_le (Nat.succ_pos _) hws.1)
      have hv := hws.inner (List.suffix_append us _).isInfix
      have hs' := Reads.stmt_of_within (ihs hws.left)
      have hss' := Reads.inside_of_within (ihss hv)
      exact (Reads.inside_more hw hs' hss' hss.head?_ne_else).map _

end Derives

end RobotLang
