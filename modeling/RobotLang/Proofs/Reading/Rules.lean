/-
The rules are plain readings.

Each rule is written over the readings of its inner phrases, so each
statement here is first about a rule over any inner readings and then, by
induction on the number of tokens that a reading is meant for, about the
rules themselves.
-/
import RobotLang.Proofs.Reading.Steps
import RobotLang.Reading.Rules

namespace RobotLang.Reading

variable {α β : Type}

namespace Plain

theorem sensor : Plain sensor :=
  .bind .begin fun _ => .bind (.require _ _) fun _ => .pure _

theorem operation {inner : Reading Expr} (h : Plain inner) :
    Plain (operation inner) := by
  refine .bind .begin fun _ => .bind (.require _ _) fun _ => ?_
  refine .bind (.mark _ _) fun _ => .bind h fun _ => ?_
  refine .bind (.mark _ _) fun _ => .bind h fun _ => ?_
  exact .bind (.mark _ _) fun _ => .pure _

theorem exprOver {inner : Reading Expr} (h : Plain inner) :
    Plain (exprOver inner) := by
  refine .bind .begin fun _ => .bind (.sees _) fun _ => .ite ?_ ?_
  · exact .bind .numeral fun _ => .pure _
  · refine .bind (.sees _) fun _ => .ite .sensor ?_
    exact .bind (.sees _) fun _ => .ite (.operation h) (.refuse _)

theorem expr (n : Nat) : Plain (expr n) := by
  induction n with
  | zero => exact .refuse _
  | succ n ih => exact .exprOver ih

theorem relation : Plain relation :=
  .bind .begin fun _ => .require _ _

theorem comparison {operand : Reading Expr} (h : Plain operand) :
    Plain (comparison operand) := by
  refine .bind .relation fun _ => .bind (.mark _ _) fun _ => ?_
  refine .bind h fun _ => .bind (.mark _ _) fun _ => ?_
  exact .bind h fun _ => .bind (.mark _ _) fun _ => .pure _

theorem second {inner : Reading Cond} (h : Plain inner) :
    Plain (connected.second inner) :=
  .bind (.mark _ _) fun _ => .bind h fun _ =>
    .bind (.mark _ _) fun _ => .pure _

theorem connected {inner : Reading Cond} (h : Plain inner) :
    Plain (connected inner) := by
  refine .bind .begin fun _ => .bind (.require _ _) fun c => ?_
  refine .bind (.mark _ _) fun _ => .bind h fun _ => ?_
  cases c with
  | not => exact .bind (.mark _ _) fun _ => .pure _
  | and => exact .bind (.second h) fun _ => .pure _
  | or => exact .bind (.second h) fun _ => .pure _

theorem condOver {operand : Reading Expr} {inner : Reading Cond}
    (ho : Plain operand) (hi : Plain inner) :
    Plain (condOver operand inner) := by
  refine .bind .begin fun _ => .bind (.sees _) fun _ => .ite ?_ ?_
  · exact .comparison ho
  · exact .bind (.sees _) fun _ => .ite (.connected hi) (.refuse _)

theorem cond (n : Nat) : Plain (cond n) := by
  induction n with
  | zero => exact .refuse _
  | succ n ih => exact .condOver (.expr n) ih

theorem action {amount : Reading Expr} (h : Plain amount) :
    Plain (action amount) := by
  refine .bind .begin fun _ => .bind (.require _ _) fun a => ?_
  cases Repeatable.ofAction? a with
  | none => exact .bind (.mark _ _) fun _ => .pure _
  | some r =>
      refine .bind (.accept _) fun o => ?_
      cases o with
      | none => exact .bind (.mark _ _) fun _ => .pure _
      | some w =>
          refine .bind h fun _ => .bind (.mark _ _) fun _ => ?_
          exact .bind (.mark _ _) fun _ => .pure _

theorem block {inside : Reading (List Stmt)} (h : Plain inside) :
    Plain (block inside) := by
  refine .bind .begin fun _ => .bind (.mark _ _) fun _ => ?_
  exact .bind h fun _ => .bind (.mark _ _) fun _ => .pure _

theorem loop {inside : Reading (List Stmt)} (h : Plain inside) :
    Plain (loop inside) :=
  .bind .begin fun _ => .bind (.word _ _) fun _ =>
    .bind (.block h) fun _ => .pure _

theorem guarded {condition : Reading Cond} (h : Plain condition) :
    Plain (guarded condition) :=
  .bind (.mark _ _) fun _ => .bind h fun _ =>
    .bind (.mark _ _) fun _ => .pure _

theorem whileDo {condition : Reading Cond} {inside : Reading (List Stmt)}
    (hc : Plain condition) (hi : Plain inside) :
    Plain (whileDo condition inside) := by
  refine .bind .begin fun _ => .bind (.word _ _) fun _ => ?_
  exact .bind (.guarded hc) fun _ => .bind (.block hi) fun _ => .pure _

theorem choice {condition : Reading Cond} {inside : Reading (List Stmt)}
    (hc : Plain condition) (hi : Plain inside) :
    Plain (choice condition inside) := by
  refine .bind .begin fun _ => .bind (.word _ _) fun _ => ?_
  refine .bind (.guarded hc) fun _ => .bind (.block hi) fun _ => ?_
  refine .bind (.accept _) fun o => ?_
  cases o with
  | none => exact .pure _
  | some w => exact .bind (.block hi) fun _ => .pure _

theorem stmtOver {amount : Reading Expr} {condition : Reading Cond}
    {inside : Reading (List Stmt)} (ha : Plain amount)
    (hc : Plain condition) (hi : Plain inside) :
    Plain (stmtOver amount condition inside) := by
  refine .bind .begin fun _ => .bind (.sees _) fun _ => .ite ?_ ?_
  · exact .action ha
  refine .bind (.sees _) fun _ => .ite ?_ ?_
  · exact .loop hi
  refine .bind (.sees _) fun _ => .ite ?_ ?_
  · exact .choice hc hi
  refine .bind (.sees _) fun _ => .ite ?_ ?_
  · exact .whileDo hc hi
  exact .peekWord (f := fun w =>
      Reading.refuse (.unknownStatement (w.getD "")))
    fun _ => .refuse _

theorem inside (n : Nat) : Plain (inside n) := by
  induction n with
  | zero => exact .pure _
  | succ n ih =>
      refine .bind .atEnd fun _ => .bind (.sees _) fun _ => .ite ?_ ?_
      · exact .pure _
      · refine .bind (.stmtOver (.expr n) (.cond n) ih) fun _ => ?_
        exact .bind ih fun _ => .pure _

theorem stmt (n : Nat) : Plain (stmt n) := by
  cases n with
  | zero => exact .refuse _
  | succ n => exact .stmtOver (.expr n) (.cond n) (.inside n)

theorem toEnd (n : Nat) : Plain (toEnd n) := by
  induction n with
  | zero => exact .pure _
  | succ n ih =>
      refine .bind .atEnd fun _ => .ite (.pure _) ?_
      exact .bind (.stmt (n + 1)) fun _ => .bind ih fun _ => .pure _

theorem program (n : Nat) : Plain (program n) :=
  .bind .begin fun _ => .bind (.toEnd n) fun _ => .pure _

/-- Every rule is a plain reading. -/
theorem upTo (n : Nat) (rule : Rule) : Plain (rule.upTo n) := by
  cases rule with
  | program => exact .bind (.program n) fun _ => .pure _
  | stmt => exact .bind (.stmt n) fun _ => .pure _
  | action => exact .bind (.action (.expr n)) fun _ => .pure _
  | loop => exact .bind (.loop (.inside n)) fun _ => .pure _
  | whileDo => exact .bind (.whileDo (.cond n) (.inside n)) fun _ => .pure _
  | choice => exact .bind (.choice (.cond n) (.inside n)) fun _ => .pure _
  | block => exact .bind (.block (.inside n)) fun _ => .pure _
  | cond => exact .bind (.cond n) fun _ => .pure _
  | relation => exact .bind .relation fun _ => .pure _
  | connected => exact .bind (.connected (.cond n)) fun _ => .pure _
  | expr => exact .bind (.expr n) fun _ => .pure _
  | sensor => exact .bind .sensor fun _ => .pure _
  | operation => exact .bind (.operation (.expr n)) fun _ => .pure _

end Plain

end RobotLang.Reading
