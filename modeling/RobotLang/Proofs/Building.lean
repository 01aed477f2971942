/-
No constructor objects to what the rules let through.

A building drafts a reading if it takes the same tokens, is refused where
the reading is, and otherwise ends with the draft of what was read. This is
kept by sequences, and a constructor ends one because the draft of a tree
checks. So every rule's building drafts its reading (`Drafts.upTo`), and
an objection is never the end of it.

What carries this are the lists of words. A rule lets a word through if it
is on the rule's list, and the constructor accepts it if it has a meaning:
each list has exactly the words of the meanings (`Lists`), and an amount is
read exactly behind an action that can be repeated. So the lists and the
constructors agree on every word (`Agreed`).
-/
import RobotLang.Proofs.Reading.Steps
import RobotLang.Reading.Building

namespace RobotLang

namespace Building

open Reading (passing)

variable {α β δ ε : Type}

-- ============================================================== lists

/-- The list has the words of the meanings and no others. -/
def Lists (ws : List String) (meaning : String → Option α)
    (word : α → String) : Prop :=
  ∀ w, passing ws.contains w = (meaning w).map word

theorem lists_words (meanings : List α) (word : α → String) :
    Lists (meanings.map word) (meaningOf? meanings word) word := by
  intro w
  cases h : meaningOf? meanings word w with
  | some a =>
      have hw := word_of_meaningOf? h
      have hmem : w ∈ meanings.map word := by
        rw [← hw]
        exact List.mem_map_of_mem (List.mem_of_find?_eq_some h)
      rw [passing, if_pos (List.contains_iff_mem.2 hmem), Option.map_some, hw]
  | none =>
      refine if_neg fun hmem => ?_
      obtain ⟨a, ha, hw⟩ := List.mem_map.1 (List.contains_iff_mem.1 hmem)
      have hne := List.find?_eq_none.1 h a ha
      exact hne (beq_iff_eq.2 hw)

theorem lists_actions : Lists actions Action.ofWord? Action.word :=
  lists_words Action.all Action.word

theorem lists_sensors : Lists sensors Sensor.ofWord? Sensor.word :=
  lists_words Sensor.all Sensor.word

theorem lists_operations :
    Lists operations Operation.ofWord? Operation.word :=
  lists_words Operation.all Operation.word

theorem lists_relations : Lists relations Relation.ofWord? Relation.word :=
  lists_words Relation.all Relation.word

theorem lists_connectives :
    Lists connectives Connective.ofWord? Connective.word :=
  lists_words Connective.all Connective.word

/-- An amount may stand behind exactly the actions that can be repeated. -/
theorem counted_word (a : Action) :
    counted.contains a.word = (Repeatable.ofAction? a).isSome := by
  cases a <;> decide

/-- A word is on the list exactly if it has a meaning. -/
theorem Lists.contains {ws : List String} {meaning : String → Option α}
    {word : α → String} (h : Lists ws meaning word) :
    ws.contains = fun w => (meaning w).isSome := by
  funext w
  have hw := congrArg Option.isSome (h w)
  rw [Option.isSome_map] at hw
  rw [← hw, passing]
  cases ws.contains w <;> rfl

theorem Lists.mem_iff {ws : List String} {meaning : String → Option α}
    {word : α → String} (h : Lists ws meaning word) {w : String} :
    w ∈ ws ↔ (meaning w).isSome = true := by
  rw [← List.contains_iff_mem, h.contains]

-- ------------------------------------- what the constructors let through

section Accepted

variable {w : String} {e : Expr}

/-- A constructor accepts a word that has a meaning for it. -/
theorem accepted_iff {ofWord? : String → Option α}
    {objection : String → Objection} {tree : α → Tree} :
    (∃ t, (do return tree (← Draft.meaning ofWord? objection w)
        : Except Objection Tree) = .ok t)
      ↔ (ofWord? w).isSome = true := by
  unfold Draft.meaning
  cases ofWord? w with
  | some a => exact iff_of_true ⟨tree a, rfl⟩ rfl
  | none =>
      refine iff_of_false (fun h => ?_) Bool.false_ne_true
      obtain ⟨t, h⟩ := h
      cases h

/-- An amount is accepted behind an action that can be repeated. -/
theorem repeatable_iff :
    (∃ r, Draft.repeatable w = .ok r) ↔ w ∈ counted := by
  cases hw : Action.ofWord? w with
  | none =>
      have hunknown : Draft.repeatable w = .error (.unknownAction w) := by
        rw [Draft.repeatable, Draft.meaning, hw]
        rfl
      have hcounted : counted ⊆ actions := by decide
      refine iff_of_false (fun h => ?_) fun h => ?_
      · obtain ⟨r, h⟩ := h
        rw [hunknown] at h
        cases h
      · have hsome := lists_actions.mem_iff.1 (hcounted h)
        rw [hw] at hsome
        cases hsome
  | some a =>
      have hrepeat : Draft.repeatable a.word
          = (Repeatable.ofAction? a).elim (.error (.takesNoAmount a.word))
            .ok := by
        cases a <;> rfl
      rw [← Action.word_of_ofWord? hw, ← List.contains_iff_mem, counted_word,
        hrepeat]
      cases Repeatable.ofAction? a with
      | some r => exact iff_of_true ⟨r, rfl⟩ rfl
      | none =>
          refine iff_of_false (fun h => ?_) Bool.false_ne_true
          obtain ⟨r, h⟩ := h
          cases h

theorem times_iff :
    (∃ t, (Draft.times w e.draft).check = .ok t) ↔ w ∈ counted := by
  rw [Draft.check, e.check_draft, ← repeatable_iff]
  constructor
  · intro h
    obtain ⟨t, h⟩ := h
    cases hr : Draft.repeatable w with
    | ok r => exact ⟨r, rfl⟩
    | error o =>
        rw [hr] at h
        cases h
  · intro h
    obtain ⟨r, h⟩ := h
    rw [h]
    exact ⟨.stmt (.times r e), rfl⟩

end Accepted

/-- A word is on a list exactly if the constructor for the list accepts
it. -/
structure Agreed (w : String) : Prop where
  action : (∃ t, (Draft.once w).check = .ok t) ↔ w ∈ actions
  amount : ∀ e : Expr,
    (∃ t, (Draft.times w e.draft).check = .ok t) ↔ w ∈ counted
  sensor : (∃ t, (Draft.sensor w).check = .ok t) ↔ w ∈ sensors
  operation : ∀ e f : Expr,
    (∃ t, (Draft.arith w e.draft f.draft).check = .ok t) ↔ w ∈ operations
  relation : ∀ e f : Expr,
    (∃ t, (Draft.compare w e.draft f.draft).check = .ok t) ↔ w ∈ relations

theorem agreed (w : String) : Agreed w where
  action := by rw [Draft.check, accepted_iff, lists_actions.mem_iff]
  amount e := times_iff
  sensor := by rw [Draft.check, accepted_iff, lists_sensors.mem_iff]
  operation e f := by
    rw [Draft.check, e.check_draft, f.check_draft, lists_operations.mem_iff]
    exact accepted_iff
  relation e f := by
    rw [Draft.check, e.check_draft, f.check_draft, lists_relations.mem_iff]
    exact accepted_iff

-- =========================================================== drafting

/-- The building ends with the draft of what is read. -/
def Drafts (b : Building δ) (r : Reading α) (draft : α → δ) : Prop :=
  b = do return draft (← reads r)

theorem reads_pure (a : α) : reads (pure a) = pure a := rfl

theorem reads_bind (r : Reading α) (f : α → Reading β) :
    reads (r >>= f) = reads r >>= fun a => reads (f a) := by
  funext ts
  show reads (EStateM.bind r f) ts
    = EStateM.bind (reads r) (fun a => reads (f a)) ts
  unfold reads EStateM.bind
  dsimp only
  cases r ts <;> rfl

/-- A word of the list is taken for its meaning. -/
theorem oneOf_eq {ws : List String} {meaning : String → Option α}
    {word : α → String} (h : Lists ws meaning word) (reason : Reason) :
    oneOf ws reason
      = do return word (← reads (Reading.require meaning reason)) := by
  have hrequire : Reading.require (passing ws.contains) reason
      = do return word (← Reading.require meaning reason) := by
    funext ts
    cases ts with
    | nil => rfl
    | cons t ts =>
        show _ = EStateM.bind (Reading.require meaning reason) _ (t :: ts)
        unfold EStateM.bind
        rw [Reading.require_cons, Reading.require_cons, h]
        cases meaning t.value <;> rfl
  rw [oneOf, hrequire, reads_bind]
  rfl

namespace Drafts

variable {b b' : Building δ} {r r' : Reading α} {draft : α → δ}

theorem pure (draft : α → δ) (a : α) :
    Drafts (Pure.pure (draft a)) (Pure.pure a) draft := by
  rw [Drafts, reads_pure, pure_bind]

theorem refuse (reason : Reason) :
    Drafts (reads (Reading.refuse reason)) (Reading.refuse reason) draft :=
  rfl

theorem ite {c : Prop} [Decidable c] (h : Drafts b r draft)
    (h' : Drafts b' r' draft) :
    Drafts (if c then b else b') (if c then r else r') draft := by
  split
  · exact h
  · exact h'

theorem bind {g : δ → Building ε} {f : α → Reading β} {draft' : β → ε}
    (h : Drafts b r draft) (hg : ∀ a, Drafts (g (draft a)) (f a) draft') :
    Drafts (b >>= g) (r >>= f) draft' := by
  have hg' : (fun a => g (draft a))
      = fun a => do return draft' (← reads (f a)) := funext hg
  rw [Drafts] at h ⊢
  rw [h, reads_bind]
  simp only [bind_assoc, pure_bind]
  rw [hg']

/-- Behind a step of reading. -/
theorem step {g : α → Building ε} {f : α → Reading β} {draft' : β → ε}
    (hg : ∀ a, Drafts (g a) (f a) draft') :
    Drafts (reads r >>= g) (r >>= f) draft' := by
  have h : Drafts (reads r) r id := (bind_pure (reads r)).symm
  exact h.bind hg

theorem sees {ws : List String} {meaning : String → Option α}
    {word : α → String} (h : Lists ws meaning word)
    {g : Bool → Building ε} {f : Bool → Reading β} {draft' : β → ε}
    (hg : ∀ a, Drafts (g a) (f a) draft') :
    Drafts (reads (Reading.sees ws.contains) >>= g)
      (Reading.sees (fun w => (meaning w).isSome) >>= f) draft' := by
  rw [h.contains]
  exact step hg

theorem oneOf {ws : List String} {meaning : String → Option α}
    {word : α → String} (h : Lists ws meaning word) {reason : Reason}
    {g : String → Building ε} {f : α → Reading β} {draft' : β → ε}
    (hg : ∀ a, Drafts (g (word a)) (f a) draft') :
    Drafts (Building.oneOf ws reason >>= g)
      (Reading.require meaning reason >>= f) draft' :=
  bind (oneOf_eq h reason) hg

/-- A constructor accepts what checks. -/
theorem construct {draft : α → Draft} {a : α} {t : Tree}
    (h : (draft a).check = .ok t) :
    Drafts (Building.construct (draft a)) (Pure.pure a) draft := by
  rw [Building.construct, h]
  exact pure draft a

-- ------------------------------------------------ over inner phrases

section Rules

variable {expr : Building Draft} {readExpr : Reading Expr}
  {cond : Building Draft} {readCond : Reading Cond}
  {inside : Building (List Draft)} {readInside : Reading (List Stmt)}
  (he : Drafts expr readExpr Expr.draft)
  (hc : Drafts cond readCond Cond.draft)
  (hi : Drafts inside readInside Stmt.drafts)

theorem sensor : Drafts Building.sensor Reading.sensor Expr.draft :=
  .step fun _ => .oneOf lists_sensors fun s =>
    .construct (Expr.check_draft (.sensor s))

include he in
theorem operation :
    Drafts (Building.operation expr) (Reading.operation readExpr)
      Expr.draft := by
  refine .step fun _ => .oneOf lists_operations fun o => .step fun _ => ?_
  refine .bind he fun l => ?_
  rw [noCommaBehind, Operation.ofWord?_word]
  refine .step fun _ => .bind he fun r => .step fun _ => ?_
  exact .construct (Expr.check_draft (.arith o l r))

include he in
theorem exprOver :
    Drafts (Building.exprOver expr) (Reading.exprOver readExpr)
      Expr.draft := by
  refine .step fun _ => .step fun _ => .ite ?_ ?_
  · exact .step fun n => .construct (Expr.check_draft (.number n))
  refine .sees lists_sensors fun _ => .ite .sensor ?_
  exact .sees lists_operations fun _ => .ite (.operation he) (.refuse _)

theorem relation :
    Drafts Building.relation Reading.relation Relation.word :=
  .step fun _ => oneOf_eq lists_relations _

include he in
theorem comparison :
    Drafts (Building.comparison expr) (Reading.comparison readExpr)
      Cond.draft := by
  refine .bind .relation fun p => .step fun _ => .bind he fun l => ?_
  refine .step fun _ => .bind he fun r => .step fun _ => ?_
  exact .construct (Cond.check_draft (.compare p l r))

include hc in
theorem connected :
    Drafts (Building.connected cond) (Reading.connected readCond)
      Cond.draft := by
  refine .step fun _ => .oneOf lists_connectives fun c => .step fun _ => ?_
  refine .bind hc fun l => ?_
  cases c with
  | not =>
      rw [if_pos (by decide)]
      exact .step fun _ => .construct (Cond.check_draft (.negate l))
  | and =>
      rw [if_neg (by decide)]
      simp only [Reading.connected.second, bind_assoc, pure_bind]
      refine .step fun _ => .bind hc fun r => .step fun _ => ?_
      rw [if_pos (by decide)]
      exact .construct (Cond.check_draft (.both l r))
  | or =>
      rw [if_neg (by decide)]
      simp only [Reading.connected.second, bind_assoc, pure_bind]
      refine .step fun _ => .bind hc fun r => .step fun _ => ?_
      rw [if_neg (by decide)]
      exact .construct (Cond.check_draft (.either l r))

include he hc in
theorem condOver :
    Drafts (Building.condOver expr cond) (Reading.condOver readExpr readCond)
      Cond.draft := by
  refine .step fun _ => .sees lists_relations fun _ => ?_
  refine .ite (.comparison he) (.sees lists_connectives fun _ => ?_)
  exact .ite (.connected hc) (.refuse _)

include he in
theorem action :
    Drafts (Building.action expr) (Reading.action readExpr)
      Stmt.draft := by
  refine .step fun _ => .oneOf lists_actions fun a => ?_
  have honce : Drafts
      (do
        reads (Reading.mark .semicolon .noSemicolon)
        Building.construct (.once a.word))
      (do
        Reading.mark .semicolon .noSemicolon
        return .once a) Stmt.draft :=
    .step fun _ => .construct (Stmt.check_draft (.once a))
  cases ha : Repeatable.ofAction? a with
  | none =>
      have hcounted : counted.contains a.word = false := by
        rw [counted_word, ha]
        rfl
      rw [if_neg (ne_true_of_eq_false hcounted)]
      exact honce
  | some r =>
      have hcounted : counted.contains a.word = true := by
        rw [counted_word, ha]
        rfl
      rw [if_pos hcounted]
      refine .step fun o => ?_
      cases o with
      | none => exact honce
      | some w =>
          refine .bind he fun e => .step fun _ => .step fun _ => ?_
          rw [← Repeatable.action_of_ofAction? ha]
          exact .construct (Stmt.check_draft (.times r e))

include hi in
theorem block :
    Drafts (Building.block inside) (Reading.block readInside)
      (fun b => (Tree.block b).draft) := by
  refine .step fun _ => .step fun _ => .bind hi fun b => .step fun _ => ?_
  exact .construct (Tree.check_draft (.block b))

include hi in
theorem loop :
    Drafts (Building.loop inside) (Reading.loop readInside) Stmt.draft := by
  refine .step fun _ => .step fun _ => .bind (.block hi) fun b => ?_
  exact .construct (Stmt.check_draft (.loop b))

include hc in
theorem guarded :
    Drafts (Building.guarded cond) (Reading.guarded readCond) Cond.draft :=
  .step fun _ => .bind hc fun c => .step fun _ => .pure _ c

include hc hi in
theorem whileDo :
    Drafts (Building.whileDo cond inside)
      (Reading.whileDo readCond readInside) Stmt.draft := by
  refine .step fun _ => .step fun _ => .bind (.guarded hc) fun c => ?_
  refine .bind (.block hi) fun b => ?_
  exact .construct (Stmt.check_draft (.whileDo c b))

include hc hi in
theorem choice :
    Drafts (Building.choice cond inside)
      (Reading.choice readCond readInside) Stmt.draft := by
  refine .step fun _ => .step fun _ => .bind (.guarded hc) fun c => ?_
  refine .bind (.block hi) fun b => .step fun o => ?_
  cases o with
  | none => exact .construct (Stmt.check_draft (.ifThen c b))
  | some w =>
      refine .bind (.block hi) fun b' => ?_
      exact .construct (Stmt.check_draft (.ifElse c b b'))

include he hc hi in
theorem stmtOver :
    Drafts (Building.stmtOver expr cond inside)
      (Reading.stmtOver readExpr readCond readInside) Stmt.draft := by
  refine .step fun _ => .sees lists_actions fun _ => .ite (.action he) ?_
  refine .step fun _ => .ite (.loop hi) ?_
  refine .step fun _ => .ite (.choice hc hi) ?_
  refine .step fun _ => .ite (.whileDo hc hi) ?_
  exact .step fun _ => .refuse _

end Rules

-- ------------------------------------------------ the rules themselves

theorem expr (n : Nat) :
    Drafts (Building.expr n) (Reading.expr n) Expr.draft := by
  induction n with
  | zero => exact .refuse _
  | succ n ih => exact .exprOver ih

theorem cond (n : Nat) :
    Drafts (Building.cond n) (Reading.cond n) Cond.draft := by
  induction n with
  | zero => exact .refuse _
  | succ n ih => exact .condOver (.expr n) ih

/-- One statement and those behind it. -/
theorem more {d : Building Draft} {s : Reading Stmt}
    {ds : Building (List Draft)} {ss : Reading (List Stmt)}
    (hs : Drafts d s Stmt.draft) (hss : Drafts ds ss Stmt.drafts) :
    Drafts (do return (← d) :: (← ds)) (do return (← s) :: (← ss))
      Stmt.drafts :=
  .bind hs fun s => .bind hss fun ss => .pure Stmt.drafts (s :: ss)

theorem inside (n : Nat) :
    Drafts (Building.inside n) (Reading.inside n) Stmt.drafts := by
  induction n with
  | zero => exact .pure Stmt.drafts []
  | succ n ih =>
      refine .step fun _ => .step fun _ => .ite (.pure Stmt.drafts []) ?_
      exact .more (.stmtOver (.expr n) (.cond n) ih) ih

theorem stmt (n : Nat) :
    Drafts (Building.stmt n) (Reading.stmt n) Stmt.draft := by
  cases n with
  | zero => exact .refuse _
  | succ n => exact .stmtOver (.expr n) (.cond n) (.inside n)

theorem toEnd (n : Nat) :
    Drafts (Building.toEnd n) (Reading.toEnd n) Stmt.drafts := by
  induction n with
  | zero => exact .pure Stmt.drafts []
  | succ n ih =>
      refine .step fun _ => .ite (.pure Stmt.drafts []) ?_
      exact .more (.stmt (n + 1)) ih

theorem program (n : Nat) :
    Drafts (Building.program n) (Reading.program n)
      (fun p => (Tree.program p).draft) := by
  refine .step fun _ => .bind (.toEnd n) fun ss => ?_
  exact .construct (Tree.check_draft (.program ⟨ss⟩))

/-- Every rule's building ends with the draft of what the rule reads. -/
theorem upTo (n : Nat) (rule : Rule) :
    Drafts (rule.buildUpTo n) (rule.upTo n) Tree.draft := by
  have htree {α : Type} {b : Building Draft} {r : Reading α}
      {tree : α → Tree} (h : Drafts b r fun a => (tree a).draft) :
      Drafts b (do return tree (← r)) Tree.draft := by
    rw [← bind_pure b]
    exact h.bind fun a => .pure _ (tree a)
  cases rule with
  | program => exact htree (.program n)
  | stmt => exact htree (.stmt n)
  | action => exact htree (.action (.expr n))
  | loop => exact htree (.loop (.inside n))
  | whileDo => exact htree (.whileDo (.cond n) (.inside n))
  | choice => exact htree (.choice (.cond n) (.inside n))
  | block => exact htree (.block (.inside n))
  | cond => exact htree (.cond n)
  | relation => exact .bind .relation fun p => .pure Tree.draft (.relation p)
  | connected => exact htree (.connected (.cond n))
  | expr => exact htree (.expr n)
  | sensor => exact htree .sensor
  | operation => exact htree (.operation (.expr n))

end Drafts

end Building

/-- Building ends as reading does, with a draft in place of the tree. -/
theorem Rule.build_eq (rule : Rule) (ts : List Token) :
    rule.build ts = match rule.read ts with
      | .ok t rest => .ok t.draft rest
      | .error e rest => .error (.refused e) rest := by
  have hdrafts := congrFun (Building.Drafts.upTo ts.length rule) ts
  rw [Rule.build, hdrafts]
  show EStateM.bind (Building.reads (rule.upTo ts.length)) _ ts = _
  unfold EStateM.bind Building.reads Rule.read
  dsimp only
  cases rule.upTo ts.length ts <;> rfl

end RobotLang
