/-
A reading never runs short of the number of tokens that it is meant for.

Two readings agree up to a length if they end the same on every list of at
most so many tokens. A sequence of readings agrees if its parts do; and if
its first part takes a token, it agrees up to one length more than the
parts behind it. Every rule takes a token before it comes to an inner
phrase, so a rule over inner readings that agree up to `k` agrees up to
`k + 1`.

The number that a reading is given is how many levels of rules there are
over readings that refuse. With as many levels as there are tokens it does
not matter what these are, as long as they are right at the end of the
tokens (`Inner.Agree.levels`); with one level more they are not reached at
all (`Inner.Agree.depth`). So any two numbers that reach the length of the
tokens read the same (`Agree.upTo`).
-/
import RobotLang.Proofs.Grammar.Opening
import RobotLang.Proofs.Reading.Phrase
import RobotLang.Proofs.Reading.Rules

namespace RobotLang.Reading

variable {α β : Type}

-- ====================================================== taking a token

/-- Behind a value at least one token is gone. -/
def Takes (r : Reading α) : Prop :=
  ∀ ts a rest, r ts = .ok a rest → rest.length < ts.length

namespace Takes

/-- What follows the phrases of a rule takes a token, programs apart. -/
theorem of_follows {r : Reading α} {rule : Rule} {tree : α → Tree}
    (h : Follows r (Phrase rule tree)) (hrule : rule ≠ .program) :
    Takes r := by
  intro ts a rest hr
  obtain ⟨taken, rfl, hderives, -⟩ := h.ok hr
  have hwords := hderives.ne_nil hrule
  have hpos : 0 < taken.length := by
    rw [← List.length_map (f := Token.value)]
    exact List.length_pos_iff.2 hwords
  rw [List.length_append]
  omega

theorem require (meaning : String → Option α) (reason : Reason) :
    Takes (require meaning reason) := by
  intro ts a rest h
  cases ts with
  | nil => cases h
  | cons t ts =>
      rw [require_cons] at h
      split at h
      · cases h
        exact Nat.lt_succ_self _
      · cases h

theorem word (w : String) (reason : Reason) : Takes (word w reason) := by
  intro ts a rest h
  obtain ⟨v, mid, hv, hrest⟩ := bind_eq_ok_iff.1 h
  cases hrest
  exact require _ _ _ _ _ hv

theorem mark (m : Mark) (reason : Reason) : Takes (mark m reason) :=
  word _ _

end Takes

-- =========================================================== agreeing

/-- The readings end the same on at most so many tokens. -/
def Agree (k : Nat) (r s : Reading α) : Prop :=
  ∀ ts, ts.length ≤ k → r ts = s ts

namespace Agree

theorem refl (k : Nat) (r : Reading α) : Agree k r r := fun _ _ => rfl

theorem mono {k l : Nat} {r s : Reading α} (h : Agree k r s)
    (hl : l ≤ k) : Agree l r s :=
  fun ts hts => h ts (Nat.le_trans hts hl)

theorem bind {k : Nat} {r s : Reading α} {f g : α → Reading β}
    (hr : Agree k r s) (hplain : Plain r)
    (hf : ∀ a, Agree k (f a) (g a)) : Agree k (r >>= f) (s >>= g) := by
  intro ts hts
  show EStateM.bind r f ts = EStateM.bind s g ts
  rw [EStateM.bind, EStateM.bind, ← hr ts hts]
  cases ha : r ts with
  | ok a mid =>
      have hlen := (hplain.suffix_of_ok ha).length_le
      exact hf a mid (Nat.le_trans hlen hts)
  | error e mid => rfl

/-- Behind a token fewer are left to agree on. -/
theorem bind_taking {k : Nat} {r s : Reading α} {f g : α → Reading β}
    (hr : Agree (k + 1) r s) (htakes : Takes r)
    (hf : ∀ a, Agree k (f a) (g a)) :
    Agree (k + 1) (r >>= f) (s >>= g) := by
  intro ts hts
  show EStateM.bind r f ts = EStateM.bind s g ts
  rw [EStateM.bind, EStateM.bind, ← hr ts hts]
  cases ha : r ts with
  | ok a mid =>
      have hlen := htakes _ _ _ ha
      exact hf a mid (by omega)
  | error e mid => rfl

/-- Behind the same reading. -/
theorem behind {k : Nat} {r : Reading α} {f g : α → Reading β}
    (hplain : Plain r) (hf : ∀ a, Agree k (f a) (g a)) :
    Agree k (r >>= f) (r >>= g) := bind (refl k r) hplain hf

/-- Behind the same reading, which takes a token. -/
theorem behind_taking {k : Nat} {r : Reading α} {f g : α → Reading β}
    (htakes : Takes r) (hf : ∀ a, Agree k (f a) (g a)) :
    Agree (k + 1) (r >>= f) (r >>= g) := bind_taking (refl _ r) htakes hf

theorem ite {k : Nat} {c : Prop} [Decidable c] {r s r' s' : Reading α}
    (hr : Agree k r r') (hs : Agree k s s') :
    Agree k (if c then r else s) (if c then r' else s') := by
  split
  · exact hr
  · exact hs

-- --------------------------------------------- over inner readings

section Rules

variable {k : Nat} {operand operand' : Reading Expr}
  {condition condition' : Reading Cond}
  {statements statements' : Reading (List Stmt)}
  (hop : Plain operand) (ho : Agree k operand operand')
  (hcp : Plain condition) (hc : Agree k condition condition')
  (hip : Plain statements) (hi : Agree k statements statements')

include hop ho in
theorem operation :
    Agree (k + 1) (operation operand) (operation operand') := by
  refine .behind .begin fun _ => .behind_taking (.require _ _) fun _ => ?_
  refine .behind (.mark _ _) fun _ => .bind ho hop fun _ => ?_
  refine .behind (.mark _ _) fun _ => .bind ho hop fun _ => ?_
  exact refl k _

include hop ho in
theorem exprOver :
    Agree (k + 1) (exprOver operand) (exprOver operand') := by
  refine .behind .begin fun _ => .behind (.sees _) fun _ => ?_
  refine .ite (refl _ _) (.behind (.sees _) fun _ => .ite (refl _ _) ?_)
  exact .behind (.sees _) fun _ => .ite (operation hop ho) (refl _ _)

include hop ho in
theorem comparison :
    Agree (k + 1) (comparison operand) (comparison operand') := by
  have hrelation : Takes relation := .of_follows .relation (by decide)
  refine .behind_taking hrelation fun _ => .behind (.mark _ _) fun _ => ?_
  refine .bind ho hop fun _ => .behind (.mark _ _) fun _ => ?_
  exact .bind ho hop fun _ => refl k _

include hcp hc in
theorem second :
    Agree k (connected.second condition) (connected.second condition') :=
  .behind (.mark _ _) fun _ => .bind hc hcp fun _ => refl k _

include hcp hc in
theorem connected :
    Agree (k + 1) (connected condition) (connected condition') := by
  refine .behind .begin fun _ => .behind_taking (.require _ _) fun c => ?_
  refine .behind (.mark _ _) fun _ => .bind hc hcp fun _ => ?_
  cases c with
  | not => exact refl k _
  | and => exact .bind (second hcp hc) (.second hcp) fun _ => refl k _
  | or => exact .bind (second hcp hc) (.second hcp) fun _ => refl k _

include hop ho hcp hc in
theorem condOver :
    Agree (k + 1) (condOver operand condition)
      (condOver operand' condition') := by
  refine .behind .begin fun _ => .behind (.sees _) fun _ => ?_
  refine .ite (comparison hop ho) (.behind (.sees _) fun _ => ?_)
  exact .ite (connected hcp hc) (refl _ _)

include hop ho in
theorem action : Agree (k + 1) (action operand) (action operand') := by
  refine .behind .begin fun _ => .behind_taking (.require _ _) fun a => ?_
  cases Repeatable.ofAction? a with
  | none => exact refl k _
  | some r =>
      refine .behind (.accept _) fun o => ?_
      cases o with
      | none => exact refl k _
      | some w => exact .bind ho hop fun _ => refl k _

include hi hip in
theorem block : Agree (k + 1) (block statements) (block statements') := by
  refine .behind .begin fun _ => .behind_taking (.mark _ _) fun _ => ?_
  exact .bind hi hip fun _ => refl k _

include hi hip in
theorem loop : Agree (k + 1) (loop statements) (loop statements') := by
  have hblock := block hip hi
  refine .behind .begin fun _ => .behind (.word _ _) fun _ => ?_
  exact .bind hblock (.block hip) fun _ => refl _ _

include hcp hc in
theorem guarded :
    Agree (k + 1) (guarded condition) (guarded condition') :=
  .behind_taking (.mark _ _) fun _ => .bind hc hcp fun _ => refl k _

include hcp hc hip hi in
theorem whileDo :
    Agree (k + 1) (whileDo condition statements)
      (whileDo condition' statements') := by
  refine .behind .begin fun _ => .behind (.word _ _) fun _ => ?_
  refine .bind (guarded hcp hc) (.guarded hcp) fun _ => ?_
  exact .bind (block hip hi) (.block hip) fun _ => refl _ _

include hcp hc hip hi in
theorem choice :
    Agree (k + 1) (choice condition statements)
      (choice condition' statements') := by
  have hblock := block hip hi
  refine .behind .begin fun _ => .behind (.word _ _) fun _ => ?_
  refine .bind (guarded hcp hc) (.guarded hcp) fun _ => ?_
  refine .bind hblock (.block hip) fun _ => .behind (.accept _) fun o => ?_
  cases o with
  | none => exact refl _ _
  | some w => exact .bind hblock (.block hip) fun _ => refl _ _

include hop ho hcp hc hip hi in
theorem stmtOver :
    Agree (k + 1) (stmtOver operand condition statements)
      (stmtOver operand' condition' statements') := by
  refine .behind .begin fun _ => .behind (.sees _) fun _ => ?_
  refine .ite (action hop ho) (.behind (.sees _) fun _ => ?_)
  refine .ite (loop hip hi) (.behind (.sees _) fun _ => ?_)
  refine .ite (choice hcp hc hip hi) (.behind (.sees _) fun _ => ?_)
  exact .ite (whileDo hcp hc hip hi) (refl _ _)

end Rules

end Agree

-- =================================================== level over level

/-- Readings of the phrases that stand in other phrases. -/
@[ext] structure Inner where
  expr : Reading Expr
  cond : Reading Cond
  stmt : Reading Stmt
  inside : Reading (List Stmt)
  toEnd : Reading (List Stmt)

namespace Inner

/-- The readings that are meant for at most so many tokens. -/
def upTo (n : Nat) : Inner where
  expr := Reading.expr n
  cond := Reading.cond n
  stmt := Reading.stmt n
  inside := Reading.inside n
  toEnd := Reading.toEnd n

/-- The rules over readings of the phrases in theirs. -/
def raised (r : Inner) : Inner where
  expr := exprOver r.expr
  cond := condOver r.expr r.cond
  stmt := stmtOver r.expr r.cond r.inside
  inside := do
    if (← atEnd) || (← sees (· == Mark.closeBrace.word)) then return []
    else
      let s ← stmtOver r.expr r.cond r.inside
      return s :: (← r.inside)
  toEnd := do
    if ← atEnd then return []
    else
      let s ← stmtOver r.expr r.cond r.inside
      return s :: (← r.toEnd)

/-- So many levels of rules over the readings of whatever is deeper. -/
def above (deepest : Inner) : Nat → Inner
  | 0 => deepest
  | n + 1 => (above deepest n).raised

/-- What a rule reads over these readings. -/
def read (r : Inner) : Rule → Reading Tree
  | .program =>
    return .program (← (do begin; return ⟨← r.toEnd⟩ : Reading Program))
  | .stmt => return .stmt (← r.stmt)
  | .action => return .stmt (← Reading.action r.expr)
  | .loop => return .stmt (← Reading.loop r.inside)
  | .whileDo => return .stmt (← Reading.whileDo r.cond r.inside)
  | .choice => return .stmt (← Reading.choice r.cond r.inside)
  | .block => return .block (← Reading.block r.inside)
  | .cond => return .cond (← r.cond)
  | .relation => return .relation (← Reading.relation)
  | .connected => return .cond (← Reading.connected r.cond)
  | .expr => return .expr (← r.expr)
  | .sensor => return .expr (← Reading.sensor)
  | .operation => return .expr (← Reading.operation r.expr)

/-- The readings for more tokens are the rules over those for fewer. -/
theorem upTo_eq_above (n : Nat) : upTo n = above (upTo 0) n := by
  induction n with
  | zero => rfl
  | succ n ih =>
      rw [above, ← ih]
      rfl

/-- The deepest level may be counted as one of the others. -/
theorem above_raised (deepest : Inner) (n : Nat) :
    above deepest.raised n = above deepest (n + 1) := by
  induction n with
  | zero => rfl
  | succ n ih => rw [above, ih, ← above]

theorem read_upTo (n : Nat) (rule : Rule) :
    (upTo n).read rule = rule.upTo n := by
  cases rule <;> rfl

/-- The readings end the same on at most so many tokens. -/
structure Agree (k : Nat) (r s : Inner) : Prop where
  expr : Reading.Agree k r.expr s.expr
  cond : Reading.Agree k r.cond s.cond
  stmt : Reading.Agree k r.stmt s.stmt
  inside : Reading.Agree k r.inside s.inside
  toEnd : Reading.Agree k r.toEnd s.toEnd

end Inner

/-- One statement and more behind it, which have fewer tokens. -/
theorem Agree.more {k : Nat} {s s' : Reading Stmt}
    {ss ss' : Reading (List Stmt)} (hs : Agree (k + 1) s s')
    (hstmt : Follows s (Phrase .stmt .stmt)) (hplain : Plain ss)
    (hss : Agree k ss ss') :
    Agree (k + 1) (do return (← s) :: (← ss))
      (do return (← s') :: (← ss')) := by
  refine .bind_taking hs (.of_follows hstmt (by decide)) fun _ => ?_
  exact .bind hss hplain fun _ => refl k _

theorem agree_zero {r s : Reading α} (h : r [] = s []) : Agree 0 r s := by
  intro ts hts
  rw [List.length_eq_zero_iff.1 (Nat.le_zero.1 hts), h]

namespace Inner.Agree

variable {k n m : Nat} {r deepest : Inner}

/-- At the end a phrase that has to begin is refused, and there are no
statements, whatever the tokens may be that the readings are meant for. -/
theorem upTo_at_end (n : Nat) : Agree 0 (upTo n) (upTo 0) := by
  cases n <;>
    exact ⟨agree_zero rfl, agree_zero rfl, agree_zero rfl, agree_zero rfl,
      agree_zero rfl⟩

/-- At the end a rule does not come to inner phrases. -/
theorem raised_at_end (r : Inner) (n : Nat) : Agree 0 (upTo n) r.raised := by
  cases n <;>
    exact ⟨agree_zero rfl, agree_zero rfl, agree_zero rfl, agree_zero rfl,
      agree_zero rfl⟩

/-- Rules over readings that agree do so on one token more. -/
theorem raised (h : Agree k (upTo n) r) :
    Agree (k + 1) (upTo (n + 1)) r.raised := by
  have hstmt := Reading.Agree.stmtOver (.expr n) h.expr (.cond n) h.cond
    (.inside n) h.inside
  have hfollows := Follows.stmtOver (.expr n) (.cond n) (.inside n)
  refine ⟨.exprOver (.expr n) h.expr,
    .condOver (.expr n) h.expr (.cond n) h.cond, hstmt, ?_, ?_⟩
  · refine .behind .atEnd fun _ => .behind (.sees _) fun _ => ?_
    exact .ite (.refl _ _) (.more hstmt hfollows (.inside n) h.inside)
  · refine .behind .atEnd fun _ => .ite (.refl _ _) ?_
    exact .more hstmt hfollows (.toEnd n) h.toEnd

/-- As many levels as there are tokens read the same over whatever does so
at the end. -/
theorem levels (h : ∀ n, Agree 0 (upTo n) deepest) (hn : k ≤ n)
    (hm : k ≤ m) : Agree k (upTo n) (above deepest m) := by
  induction k generalizing n m with
  | zero =>
      cases m with
      | zero => exact h n
      | succ m => exact raised_at_end _ n
  | succ k ih =>
      obtain ⟨n, rfl⟩ := Nat.exists_eq_add_one.2 (by omega : 0 < n)
      obtain ⟨m, rfl⟩ := Nat.exists_eq_add_one.2 (by omega : 0 < m)
      exact raised (ih (Nat.le_of_succ_le_succ hn) (Nat.le_of_succ_le_succ hm))

/-- Any two numbers that reach the length of the tokens read the same. -/
theorem upTo (hn : k ≤ n) (hm : k ≤ m) :
    Agree k (Inner.upTo n) (Inner.upTo m) := by
  rw [upTo_eq_above m]
  exact levels upTo_at_end hn hm

/-- One level more than there are tokens is not reached, whatever may be
there. -/
theorem depth (deepest : Inner) (hn : k ≤ n) (hm : k < m) :
    Agree k (Inner.upTo n) (above deepest m) := by
  obtain ⟨m, rfl⟩ := Nat.exists_eq_add_one.2 (by omega : 0 < m)
  rw [← above_raised]
  exact levels (raised_at_end deepest) hn (Nat.le_of_lt_succ hm)

/-- Over readings that agree every rule does. -/
theorem read (h : Agree k (Inner.upTo n) r) (rule : Rule) :
    Reading.Agree k (rule.upTo n) (r.read rule) := by
  have htree {α : Type} {r s : Reading α} {tree : α → Tree}
      (hr : Plain r) (h : Reading.Agree k r s) :
      Reading.Agree k (do return tree (← r)) (do return tree (← s)) :=
    .bind h hr fun _ => .refl k _
  have hk : k ≤ k + 1 := Nat.le_succ k
  cases rule with
  | program =>
      exact htree (.program n) (.behind .begin fun _ =>
        .bind h.toEnd (.toEnd n) fun _ => .refl k _)
  | stmt => exact htree (.stmt n) h.stmt
  | action =>
      exact htree (.action (.expr n))
        ((Reading.Agree.action (.expr n) h.expr).mono hk)
  | loop =>
      exact htree (.loop (.inside n))
        ((Reading.Agree.loop (.inside n) h.inside).mono hk)
  | whileDo =>
      exact htree (.whileDo (.cond n) (.inside n))
        ((Reading.Agree.whileDo (.cond n) h.cond (.inside n)
          h.inside).mono hk)
  | choice =>
      exact htree (.choice (.cond n) (.inside n))
        ((Reading.Agree.choice (.cond n) h.cond (.inside n)
          h.inside).mono hk)
  | block =>
      exact htree (.block (.inside n))
        ((Reading.Agree.block (.inside n) h.inside).mono hk)
  | cond => exact htree (.cond n) h.cond
  | relation => exact .refl k _
  | connected =>
      exact htree (.connected (.cond n))
        ((Reading.Agree.connected (.cond n) h.cond).mono hk)
  | expr => exact htree (.expr n) h.expr
  | sensor => exact .refl k _
  | operation =>
      exact htree (.operation (.expr n))
        ((Reading.Agree.operation (.expr n) h.expr).mono hk)

end Inner.Agree

-- ------------------------------------------------ the rules themselves

namespace Agree

variable {k n m : Nat} (hn : k ≤ n) (hm : k ≤ m)

include hn hm

theorem expr : Agree k (expr n) (expr m) := (Inner.Agree.upTo hn hm).expr

theorem cond : Agree k (cond n) (cond m) := (Inner.Agree.upTo hn hm).cond

theorem stmt : Agree k (stmt n) (stmt m) := (Inner.Agree.upTo hn hm).stmt

theorem inside : Agree k (inside n) (inside m) :=
  (Inner.Agree.upTo hn hm).inside

theorem toEnd : Agree k (toEnd n) (toEnd m) :=
  (Inner.Agree.upTo hn hm).toEnd

theorem program : Agree k (program n) (program m) :=
  .behind .begin fun _ => .bind (toEnd hn hm) (.toEnd n) fun _ => refl k _

/-- Any two numbers that reach the length of the tokens read the same. -/
theorem upTo (rule : Rule) : Agree k (rule.upTo n) (rule.upTo m) := by
  rw [← Inner.read_upTo m]
  exact (Inner.Agree.upTo hn hm).read rule

end Agree

end RobotLang.Reading
