/-
The rules follow the grammar.

A phrase of a rule is legible words that derive a tree from it. Each rule
over inner readings that follow the phrases of their rules follows its
own, so by induction every rule does, for any number of tokens that it is
meant for: a reading that runs short of that number stands where a phrase
has to begin, and a phrase could begin there.
-/
import RobotLang.Proofs.Grammar
import RobotLang.Proofs.Reading.Follows

namespace RobotLang.Reading

/-- Legible words that derive the tree of a value from the rule. -/
def Phrase {α : Type} (rule : Rule) (tree : α → Tree) (a : α)
    (ws : List String) : Prop :=
  Derives rule ws (tree a) ∧ Legible ws

/-- The statements of a program, or of what a block encloses. -/
def Series : List Stmt → List String → Prop :=
  Phrase .program fun ss => .program ⟨ss⟩

namespace Follows

-- ========================================================= expressions

theorem numeral :
    Follows numeral (Phrase .expr fun n => .expr (.number n)) where
  inhabited := ⟨0, ["0"], .number (w := "0") rfl, by
    rw [legible_singleton]
    decide⟩
  ok := by
    intro ts n rest h
    cases ts with
    | nil => cases h
    | cons t ts =>
        rw [numeral_cons] at h
        split at h
        · next hw =>
          split at h
          · cases h
          · next hl =>
            cases h
            exact ⟨[t], rfl, .number hw,
              legible_singleton.2 fun _ => Nat.le_of_not_lt hl⟩
        · cases h
  stuck := by
    intro ts f rest h
    refine ⟨[], ["0"], 0, ?_, .number (w := "0") rfl, ?_⟩
    · cases ts with
      | nil =>
          cases h
          rfl
      | cons t ts =>
          rw [numeral_cons] at h
          split at h
          · split at h <;> cases h
          · cases h
            rfl
    · rw [List.map_nil, List.nil_append, legible_singleton]
      decide

theorem sensor : Follows sensor (Phrase .sensor .expr) := by
  refine .look_bind .begin fun _ => ?_
  refine .require_bind ⟨.fuelLeft, _, Sensor.ofWord?_word _⟩ ?_
  intro s w hw
  obtain rfl := Sensor.word_of_ofWord? hw
  exact .pure ⟨.sensor s, by simp⟩

theorem operation {inner : Reading Expr}
    (h : Follows inner (Phrase .expr .expr)) :
    Follows (operation inner) (Phrase .operation .expr) := by
  refine .look_bind .begin fun _ => ?_
  refine .require_bind ⟨.add, _, Operation.ofWord?_word _⟩ ?_
  intro o w hw
  obtain rfl := Operation.word_of_ofWord? hw
  refine .mark_bind (h.bind fun l u hu => ?_)
  refine .mark_bind (h.bind fun r v hv => ?_)
  refine .mark_bind (.pure ?_)
  rw [← call_eq]
  exact ⟨.operation o hu.1 hv.1, (legible_call (by simp)).2 ⟨hu.2, hv.2⟩⟩

theorem exprOver {inner : Reading Expr}
    (h : Follows inner (Phrase .expr .expr)) :
    Follows (exprOver inner) (Phrase .expr .expr) := by
  have hnumber : Follows (return .number (← Reading.numeral))
      (Phrase .expr .expr) :=
    numeral.bind fun n u hu => .pure (by rwa [List.append_nil])
  refine .look_bind .begin fun _ => .look_bind (.sees _) fun _ => ?_
  refine .ite hnumber (.look_bind (.sees _) fun _ => .ite ?_ ?_)
  · exact sensor.mono fun _ _ hp => ⟨.exprSensor hp.1, hp.2⟩
  refine .look_bind (.sees _) fun _ => .ite ?_ (.refuse hnumber.inhabited)
  exact (operation h).mono fun _ _ hp => ⟨.exprOperation hp.1, hp.2⟩

theorem expr (n : Nat) : Follows (expr n) (Phrase .expr .expr) := by
  induction n with
  | zero =>
      obtain ⟨n, ws, h⟩ := numeral.inhabited
      exact .refuse ⟨.number n, ws, h⟩
  | succ n ih => exact .exprOver ih

-- ========================================================== conditions

theorem relation : Follows relation (Phrase .relation .relation) := by
  refine .look_bind .begin fun _ => ?_
  refine (require ⟨.lt, _, Relation.ofWord?_word _⟩).mono ?_
  intro r ws hws
  obtain ⟨w, rfl, hw⟩ := hws
  obtain rfl := Relation.word_of_ofWord? hw
  exact ⟨.relation r, by simp⟩

theorem comparison {operand : Reading Expr}
    (h : Follows operand (Phrase .expr .expr)) :
    Follows (comparison operand) (Phrase .cond .cond) := by
  refine relation.bind fun p ws hp => ?_
  obtain ⟨⟨⟩, -⟩ := hp
  refine .mark_bind (h.bind fun l u hu => ?_)
  refine .mark_bind (h.bind fun r v hv => ?_)
  refine .mark_bind (.pure ?_)
  rw [List.singleton_append, ← call_eq]
  exact ⟨.comparison (.relation p) hu.1 hv.1,
    (legible_call (by simp)).2 ⟨hu.2, hv.2⟩⟩

/-- Behind the first of two connected conditions. -/
theorem second {inner : Reading Cond} {β : Type} {f : Cond → Reading β}
    {M : β → List String → Prop} (h : Follows inner (Phrase .cond .cond))
    (hf : ∀ r v, Phrase .cond .cond r v →
      Follows (f r) fun b ws =>
        M b (Mark.comma.word :: (v ++ Mark.closeParen.word :: ws))) :
    Follows (connected.second inner >>= f) M := by
  have hsecond : Follows (connected.second inner) fun r ws =>
      ∃ v, Phrase .cond .cond r v
        ∧ ws = Mark.comma.word :: (v ++ [Mark.closeParen.word]) :=
    .mark_bind (h.bind fun r v hv => .mark_bind (.pure ⟨v, hv, rfl⟩))
  refine hsecond.bind fun r ws hws => ?_
  obtain ⟨v, hv, rfl⟩ := hws
  refine (hf r v hv).mono fun b ws hM => ?_
  simpa using hM

theorem connected {inner : Reading Cond}
    (h : Follows inner (Phrase .cond .cond)) :
    Follows (connected inner) (Phrase .connected .cond) := by
  refine .look_bind .begin fun _ => ?_
  refine .require_bind ⟨.not, _, Connective.ofWord?_word _⟩ ?_
  intro c w hw
  obtain rfl := Connective.word_of_ofWord? hw
  refine .mark_bind (h.bind fun l u hu => ?_)
  cases c with
  | not =>
      refine .mark_bind (.pure ?_)
      exact ⟨.negate hu.1, by simpa using hu.2⟩
  | and =>
      refine second h fun r v hv => .pure ?_
      rw [← call_eq]
      exact ⟨.both hu.1 hv.1, (legible_call (by simp)).2 ⟨hu.2, hv.2⟩⟩
  | or =>
      refine second h fun r v hv => .pure ?_
      rw [← call_eq]
      exact ⟨.either hu.1 hv.1, (legible_call (by simp)).2 ⟨hu.2, hv.2⟩⟩

theorem condOver {operand : Reading Expr} {inner : Reading Cond}
    (ho : Follows operand (Phrase .expr .expr))
    (hi : Follows inner (Phrase .cond .cond)) :
    Follows (condOver operand inner) (Phrase .cond .cond) := by
  have hcomparison := comparison ho
  refine .look_bind .begin fun _ => .look_bind (.sees _) fun _ => ?_
  refine .ite hcomparison (.look_bind (.sees _) fun _ => .ite ?_ ?_)
  · exact (connected hi).mono fun _ _ hp => ⟨.condConnected hp.1, hp.2⟩
  · exact .refuse hcomparison.inhabited

theorem cond (n : Nat) : Follows (cond n) (Phrase .cond .cond) := by
  induction n with
  | zero => exact .refuse (comparison (expr 0)).inhabited
  | succ n ih => exact .condOver (expr n) ih

-- ========================================================== statements

theorem action {amount : Reading Expr}
    (h : Follows amount (Phrase .expr .expr)) :
    Follows (action amount) (Phrase .action .stmt) := by
  have honce (a : Action) :
      Follows (do mark .semicolon .noSemicolon; return Stmt.once a)
        fun s ws => Phrase .action .stmt s (a.word :: ws) :=
    .mark_bind (.pure ⟨.once a, by simp⟩)
  refine .look_bind .begin fun _ => ?_
  refine .require_bind ⟨.move, _, Action.ofWord?_word _⟩ ?_
  intro a w hw
  obtain rfl := Action.word_of_ofWord? hw
  cases hr : Repeatable.ofAction? a with
  | none => exact honce a
  | some r =>
      obtain rfl := Repeatable.action_of_ofAction? hr
      refine .accept_bind (honce _) fun v w hv => ?_
      obtain rfl := eq_of_beq (eq_of_passing hv).2
      refine h.bind fun e u hu => .mark_bind (.mark_bind (.pure ?_))
      have hwords : u ++ [Mark.closeParen.word, Mark.semicolon.word]
          = (u ++ [Mark.closeParen.word]) ++ [Mark.semicolon.word] := by
        rw [List.append_assoc]
        rfl
      rw [hwords]
      exact ⟨.times r hu.1, by simpa using hu.2⟩

theorem block {inside : Reading (List Stmt)} (h : Follows inside Series) :
    Follows (block inside) (Phrase .block .block) := by
  refine .look_bind .begin fun _ => .mark_bind (h.bind fun b u hu => ?_)
  exact .mark_bind (.pure ⟨.block hu.1, legible_inBraces.2 hu.2⟩)

theorem loop {inside : Reading (List Stmt)} (h : Follows inside Series) :
    Follows (loop inside) (Phrase .loop .stmt) := by
  refine .look_bind .begin fun _ => .word_bind ?_
  refine (block h).bind fun b u hu => .pure ?_
  rw [List.append_nil]
  exact ⟨.loop hu.1, by simpa using hu.2⟩

/-- Behind a condition between parentheses. -/
theorem guarded {condition : Reading Cond} {β : Type}
    {f : Cond → Reading β} {M : β → List String → Prop}
    (h : Follows condition (Phrase .cond .cond))
    (hf : ∀ c u, Phrase .cond .cond c u →
      Follows (f c) fun b ws => M b (inParens u ++ ws)) :
    Follows (guarded condition >>= f) M := by
  have hguarded : Follows (Reading.guarded condition) fun c ws =>
      ∃ u, Phrase .cond .cond c u ∧ ws = inParens u :=
    .mark_bind (h.bind fun c u hu => .mark_bind (.pure ⟨u, hu, rfl⟩))
  refine hguarded.bind fun c ws hws => ?_
  obtain ⟨u, hu, rfl⟩ := hws
  exact hf c u hu

theorem whileDo {condition : Reading Cond}
    {inside : Reading (List Stmt)}
    (hc : Follows condition (Phrase .cond .cond))
    (hi : Follows inside Series) :
    Follows (whileDo condition inside) (Phrase .whileDo .stmt) := by
  refine .look_bind .begin fun _ => .word_bind ?_
  refine guarded hc fun c u hu => (block hi).bind fun b v hv => .pure ?_
  rw [List.append_nil]
  exact ⟨.whileDo hu.1 hv.1, by simpa using ⟨hu.2, hv.2⟩⟩

theorem choice {condition : Reading Cond} {inside : Reading (List Stmt)}
    (hc : Follows condition (Phrase .cond .cond))
    (hi : Follows inside Series) :
    Follows (choice condition inside) (Phrase .choice .stmt) := by
  refine .look_bind .begin fun _ => .word_bind ?_
  refine guarded hc fun c u hu => (block hi).bind fun b v hv => ?_
  refine .accept_bind ?_ fun w' w hw => ?_
  · refine .pure ?_
    rw [List.append_nil]
    exact ⟨.ifThen hu.1 hv.1, by simpa using ⟨hu.2, hv.2⟩⟩
  · obtain ⟨-, hw⟩ := eq_of_passing hw
    obtain rfl : w = "else" := of_decide_eq_true hw
    refine (block hi).bind fun o x hx => .pure ?_
    rw [List.append_nil]
    exact ⟨.ifElse hu.1 hv.1 hx.1, by simpa using ⟨hu.2, hv.2, hx.2⟩⟩

theorem stmtOver {amount : Reading Expr} {condition : Reading Cond}
    {inside : Reading (List Stmt)}
    (ha : Follows amount (Phrase .expr .expr))
    (hc : Follows condition (Phrase .cond .cond))
    (hi : Follows inside Series) :
    Follows (stmtOver amount condition inside) (Phrase .stmt .stmt) := by
  have haction : Follows (Reading.action amount) (Phrase .stmt .stmt) :=
    (action ha).mono fun _ _ hp => ⟨.stmtAction hp.1, hp.2⟩
  refine .look_bind .begin fun _ => .look_bind (.sees _) fun _ => ?_
  refine .ite haction (.look_bind (.sees _) fun _ => .ite ?_ ?_)
  · exact (loop hi).mono fun _ _ hp => ⟨.stmtLoop hp.1, hp.2⟩
  refine .look_bind (.sees _) fun _ => .ite ?_ ?_
  · exact (choice hc hi).mono fun _ _ hp => ⟨.stmtChoice hp.1, hp.2⟩
  refine .look_bind (.sees _) fun _ => .ite ?_ ?_
  · exact (whileDo hc hi).mono fun _ _ hp => ⟨.stmtWhile hp.1, hp.2⟩
  exact .look_bind .peek fun _ => .refuse haction.inhabited

-- ============================================================== series

/-- No statements, or one and more behind it. -/
theorem more {s : Reading Stmt} {ss : Reading (List Stmt)}
    (hs : Follows s (Phrase .stmt .stmt)) (hss : Follows ss Series) :
    Follows (do return (← s) :: (← ss)) Series := by
  refine hs.bind fun s u hu => hss.bind fun ss v hv => .pure ?_
  rw [List.append_nil]
  exact ⟨.more hu.1 hv.1, legible_append.2 ⟨hu.2, hv.2⟩⟩

theorem none : Follows (return []) Series := .pure ⟨.none, legible_nil⟩

theorem inside (n : Nat) : Follows (inside n) Series := by
  induction n with
  | zero => exact none
  | succ n ih =>
      refine .look_bind .atEnd fun _ => .look_bind (.sees _) fun _ => ?_
      exact .ite none (more (stmtOver (expr n) (cond n) ih) ih)

theorem stmt (n : Nat) : Follows (stmt n) (Phrase .stmt .stmt) := by
  cases n with
  | zero =>
      exact .refuse (stmtOver (expr 0) (cond 0) (inside 0)).inhabited
  | succ n => exact stmtOver (expr n) (cond n) (inside n)

theorem toEnd (n : Nat) : Follows (toEnd n) Series := by
  induction n with
  | zero => exact none
  | succ n ih =>
      refine .look_bind .atEnd fun _ => ?_
      exact .ite none (more (stmt (n + 1)) ih)

theorem program (n : Nat) :
    Follows (program n) (Phrase .program .program) := by
  refine .look_bind .begin fun _ => (toEnd n).bind fun ss u hu => .pure ?_
  rw [List.append_nil]
  exact hu

/-- Every rule follows its phrases. -/
theorem upTo (n : Nat) (rule : Rule) :
    Follows (rule.upTo n) (Phrase rule id) := by
  have htree {α : Type} {r : Reading α} {tree : α → Tree}
      (h : Follows r (Phrase rule tree)) :
      Follows (do return tree (← r)) (Phrase rule id) :=
    h.bind fun a u hu => .pure (by rwa [List.append_nil])
  cases rule with
  | program => exact htree (program n)
  | stmt => exact htree (stmt n)
  | action => exact htree (action (expr n))
  | loop => exact htree (loop (inside n))
  | whileDo => exact htree (whileDo (cond n) (inside n))
  | choice => exact htree (choice (cond n) (inside n))
  | block => exact htree (block (inside n))
  | cond => exact htree (cond n)
  | relation => exact htree relation
  | connected => exact htree (connected (cond n))
  | expr => exact htree (expr n)
  | sensor => exact htree sensor
  | operation => exact htree (operation (expr n))

end Follows

end RobotLang.Reading
