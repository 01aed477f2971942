/-
Program texts put together.

The text of a program can be followed by that of another, with or without
white space in between: both together are the text of the program that has
the statements of both. The first text ends with a mark, so no word goes on
over the seam (`Proofs/Token/Seam`); its words derive its statements and no
others, so what follows cannot become part of the last of them.

Running the program of both is running the first and, if that came to its
end, the second on the robot as the first left it.
-/
import RobotLang.Proofs.Execution.InTurn
import RobotLang.Proofs.Grammar.Closing
import RobotLang.Proofs.Reading.Exact
import RobotLang.Proofs.Source
import RobotLang.Proofs.Token.Seam
import RobotLang.Robot.Metered

namespace RobotLang

open Text

variable {a b w : String} {p q : Program}

-- ============================================================ the text

/-- The text of a program ends in no letter. -/
theorem Program.goesOn_reverse_of_ofText (h : ofText a = .ok p) :
    Lexeme.goesOn a.toList.reverse = false := by
  obtain ⟨-, hderives, -⟩ := ofTokens_eq_ok_iff.1 h
  rw [map_value_tokenize] at hderives
  refine goesOn_reverse_of_mark fun v hv => ?_
  have hne : wordsOf a.toList ≠ [] := fun hnil => by simp [hnil] at hv
  obtain ⟨m, hm⟩ := hderives.program_endsInMark hne
  exact ⟨m, Option.some.inj (hv.symm.trans hm)⟩

/-- The words of two program texts are those of both together. -/
theorem Program.wordsOf_join (ha : ofText a = .ok p)
    (hw : ∀ c ∈ w.toList, isBlank c = true) :
    wordsOf (a ++ w ++ b).toList
      = wordsOf a.toList ++ wordsOf b.toList := by
  rw [String.toList_append, String.toList_append, List.append_assoc,
    wordsOf_append (.inl (goesOn_reverse_of_ofText ha)),
    wordsOf_blanks_append hw]

/-- Two program texts, with any white space in between, are the text of the
program with the statements of both. -/
theorem Program.ofText_join (ha : ofText a = .ok p) (hb : ofText b = .ok q)
    (hw : ∀ c ∈ w.toList, isBlank c = true) :
    ofText (a ++ w ++ b) = .ok ⟨p.statements ++ q.statements⟩ := by
  have hwords := wordsOf_join (b := b) ha hw
  obtain ⟨hne, hderives, hlegible⟩ := ofTokens_eq_ok_iff.1 ha
  obtain ⟨-, hderives', hlegible'⟩ := ofTokens_eq_ok_iff.1 hb
  refine ofTokens_eq_ok_iff.2 ⟨fun hnil => hne ?_, ?_⟩
  · rw [← List.map_eq_nil_iff (f := Token.value), map_value_tokenize,
      hwords, List.append_eq_nil_iff] at hnil
    rw [← List.map_eq_nil_iff (f := Token.value), map_value_tokenize]
    exact hnil.1
  · rw [map_value_tokenize, hwords, ← map_value_tokenize,
      ← map_value_tokenize]
    exact ⟨hderives.program_append hderives',
      legible_append.2 ⟨hlegible, hlegible'⟩⟩

-- ============================================================= parsing

/-- Program text composes by concatenation. If two texts are accepted, so
are both together, with any white space in between, and give the program
with the statements of both. Executing that does, and logs, what executing
the first does and then, if it came to its end, the second on the same
robot; it ends if they do and as they do. -/
theorem Source.texts_compose (a b w : String) (p q : Program)
    (ha : (parseText a).2 = .ok p) (hb : (parseText b).2 = .ok q)
    (hw : ∀ c ∈ w.toList, isBlank c = true) :
    (parseText (a ++ w ++ b)).2 = .ok ⟨p.statements ++ q.statements⟩
    ∧ ∀ (σ : Type) (robot : Robot σ),
      (∀ limit, Stmt.execAll robot limit (p.statements ++ q.statements)
        = do
          Stmt.execAll robot limit p.statements
          Stmt.execAll robot limit q.statements)
      ∧ (∀ s r, Stmt.Ends robot (p.statements ++ q.statements) s r
        ↔ InTurn () (Stmt.Ends robot p.statements s)
            (Stmt.Ends robot q.statements) r)
      ∧ ∀ s r, Program.Ends robot ⟨p.statements ++ q.statements⟩ s r
        ↔ InTurn true (p.Ends robot s) (q.Ends robot) r := by
  rw [parseText_result] at ha hb ⊢
  refine ⟨Program.ofText_join ha hb hw, fun σ robot => ⟨?_, ?_, ?_⟩⟩
  · intro limit
    exact Stmt.execAll_append robot limit p.statements q.statements
  · intro s r
    exact Stmt.ends_append_iff
  · intro s r
    exact Program.ends_append_iff

/-- A guarded step, and a turn for which the robot has no action left. -/
theorem Source.texts_compose_ifThen :
    let guarded : Stmt :=
      .ifThen (.compare .lt (.number 1) (.number 2)) [.once .move]
    let m : Meter := ⟨[], some 1, 500, false, 0, 0, false⟩
    (parseText "if(lt(1,2))\x7bmove;\x7d").2 = .ok ⟨[guarded]⟩
    ∧ (parseText "turnL;").2 = .ok ⟨[.once .turnLeft]⟩
    ∧ (parseText "if(lt(1,2))\x7bmove;\x7dturnL;").2
      = .ok ⟨[guarded, .once .turnLeft]⟩
    ∧ Program.Ends Meter.robot ⟨[guarded, .once .turnLeft]⟩ m
      ⟨[.call (.did .move), .note (.stopped "out of actions after 1")],
        { m with actions := 1 }, .ok false⟩ := by
  intro guarded m
  have htokens : tokenize "if(lt(1,2))\x7bmove;\x7d"
      = [⟨"if", ⟨1, 0⟩⟩, ⟨"(", ⟨1, 2⟩⟩, ⟨"lt", ⟨1, 3⟩⟩, ⟨"(", ⟨1, 5⟩⟩,
        ⟨"1", ⟨1, 6⟩⟩, ⟨",", ⟨1, 7⟩⟩, ⟨"2", ⟨1, 8⟩⟩, ⟨")", ⟨1, 9⟩⟩,
        ⟨")", ⟨1, 10⟩⟩, ⟨"\x7b", ⟨1, 11⟩⟩, ⟨"move", ⟨1, 12⟩⟩,
        ⟨";", ⟨1, 16⟩⟩, ⟨"\x7d", ⟨1, 17⟩⟩] := by decide +kernel
  have ha : (parseText "if(lt(1,2))\x7bmove;\x7d").2 = .ok ⟨[guarded]⟩ := by
    unfold parseText
    rw [htokens]
    rfl
  have hb : (parseText "turnL;").2 = .ok ⟨[.once .turnLeft]⟩ := rfl
  have hfirst : Program.Ends Meter.robot ⟨[guarded]⟩ m
      ⟨[.call (.did .move)], { m with actions := 1 }, .ok true⟩ :=
    ⟨by simp, 2, rfl⟩
  have hsecond : Program.Ends Meter.robot ⟨[.once .turnLeft]⟩
      { m with actions := 1 } ⟨[.note (.stopped "out of actions after 1")],
        { m with actions := 1 }, .ok false⟩ := by
    have hmessage : "out of actions after 1"
        = "out of actions after " ++ toString 1 := by decide +kernel
    rw [hmessage]
    exact ⟨by simp, 2, rfl⟩
  obtain ⟨hboth, hruns⟩ := texts_compose _ _ "" _ _ ha hb (by simp)
  obtain ⟨-, -, hends⟩ := hruns Meter Meter.robot
  exact ⟨ha, hb, hboth, (hends m _).2 (.both hfirst rfl hsecond)⟩

end RobotLang
