/-
A syntax error points at the word in front of which reading stopped.

Every refusal of a rule is built from the tokens that are left
(`Plain.failure_eq`), so its line, column and context are those of the
token at the cursor and of the next few, and there are none exactly at the
end. If the tokens come from a text, their places lead back into it
(`tokenize_located`), so the error's line and column are where the first
word of its context stands in the text.
-/
import RobotLang.Proofs.Cursor
import RobotLang.Proofs.Token.Place

namespace RobotLang

open Reading

variable {tokens : List Token} {p q : Nat} {rule : Rule} {f : Failure}

/-- A rule fails in front of the tokens that it leaves. -/
theorem Cursor.failure_eq_before (hp : p ≤ tokens.length)
    (h : (Cursor.mk tokens p).perform rule.read
      = (.error (.rejected f), ⟨tokens, q⟩)) :
    q ≤ tokens.length ∧ f = .before f.reason (tokens.drop q) := by
  obtain ⟨-, hq, hread⟩ := (perform_error_iff rule.read_suffix hp).1 h
  have hplain : Plain (rule.upTo (tokens.drop p).length) := .upTo _ _
  exact ⟨hq, hplain.failure_eq hread⟩

namespace Failure

variable {reason : Reason}

theorem before_drop_context :
    (before reason (tokens.drop q)).context
      = wordsBetween tokens q (q + contextSize) := by
  show ((tokens.drop q).take contextSize).map Token.value = _
  rw [wordsBetween, List.extract_eq_take_drop, Nat.add_sub_cancel_left]

theorem before_drop_line :
    (before reason (tokens.drop q)).line
      = tokens[q]?.map fun t => t.place.line := by
  show (tokens.drop q).head?.map _ = _
  rw [List.head?_drop]

theorem before_drop_column :
    (before reason (tokens.drop q)).column
      = tokens[q]?.map fun t => t.place.column := by
  show (tokens.drop q).head?.map _ = _
  rw [List.head?_drop]

/-- The first word of the context is that of the token at the place. -/
theorem before_drop_head? :
    (before reason (tokens.drop q)).context.head?
      = tokens[q]?.map Token.value := by
  rw [← List.head?_drop]
  cases tokens.drop q <;> rfl

end Failure

/-- Where a rule fails on the tokens of a text, the text has the first word
of the failure's context. -/
theorem Cursor.failure_located {text : String}
    (hp : p ≤ (tokenize text).length)
    (h : (Cursor.mk (tokenize text) p).perform rule.read
      = (.error (.rejected f), ⟨tokenize text, q⟩)) {w : String}
    (hw : f.context.head? = some w) :
    ∃ (above column : Nat) (line : List Char),
      f.line = some (above + 1 : Int) ∧ f.column = some (column : Int)
      ∧ (linesOf text.toList)[above]? = some line
      ∧ w.toList <+: line.drop column := by
  obtain ⟨-, hf⟩ := failure_eq_before hp h
  rw [hf, Failure.before_drop_head?] at hw
  obtain ⟨t, ht, rfl⟩ := Option.map_eq_some_iff.1 hw
  obtain ⟨above, column, line, hplace, hline, hprefix⟩ :=
    tokenize_located (List.mem_of_getElem? ht)
  refine ⟨above, column, line, ?_, ?_, hline, hprefix⟩
  · rw [hf, Failure.before_drop_line, ht, Option.map_some, hplace]
  · rw [hf, Failure.before_drop_column, ht, Option.map_some, hplace]

/-- Every syntax error points at the right place: it shows the words from
where the rule stopped, five at most, with the place of the first one, and
nothing at all exactly at the end of the tokens. In a text, the line of
that number begins, from that column on, with the first word shown. -/
theorem Cursor.failure_points_at_stop :
    (∀ (tokens : List Token) (p q : Nat) (rule : Rule) (f : Failure),
      p ≤ tokens.length →
      (Cursor.mk tokens p).perform rule.read
        = (.error (.rejected f), ⟨tokens, q⟩) →
      f.context = wordsBetween tokens q (q + 5)
        ∧ f.line = (tokens[q]?.map fun t => t.place.line)
        ∧ f.column = (tokens[q]?.map fun t => t.place.column)
        ∧ (f.line = none ↔ q = tokens.length)
        ∧ (f.column = none ↔ q = tokens.length)
        ∧ (f.context = [] ↔ q = tokens.length))
    ∧ ∀ (text : String) (p q : Nat) (rule : Rule) (f : Failure),
      p ≤ (tokenize text).length →
      (Cursor.mk (tokenize text) p).perform rule.read
        = (.error (.rejected f), ⟨tokenize text, q⟩) →
      ∀ w, f.context.head? = some w →
        ∃ (number column : Nat) (line : List Char),
          1 ≤ number ∧ f.line = some (number : Int)
          ∧ f.column = some (column : Int)
          ∧ (text.toList.splitOn '\n')[number - 1]? = some line
          ∧ w.toList <+: line.drop column := by
  constructor
  · intro tokens p q rule f hp h
    obtain ⟨hq, hf⟩ := failure_eq_before hp h
    have hend : tokens[q]? = none ↔ q = tokens.length := by
      rw [List.getElem?_eq_none_iff]
      omega
    refine ⟨?_, ?_, ?_, ?_, ?_, ?_⟩
    · rw [hf, Failure.before_drop_context]
      rfl
    · rw [hf, Failure.before_drop_line]
    · rw [hf, Failure.before_drop_column]
    · rw [hf, Failure.before_drop_line, Option.map_eq_none_iff, hend]
    · rw [hf, Failure.before_drop_column, Option.map_eq_none_iff, hend]
    · rw [hf, ← List.head?_eq_none_iff, Failure.before_drop_head?,
        Option.map_eq_none_iff, hend]
  · intro text p q rule f hp h w hw
    obtain ⟨above, column, line, hline, hcolumn, hfound, hprefix⟩ :=
      failure_located hp h hw
    exact ⟨above + 1, column, line, Nat.le_add_left 1 above, hline, hcolumn,
      hfound, hprefix⟩

theorem Cursor.failure_points_at_stop_condition :
    (Cursor.mk (tokenize "wait;\n\u2028if(a") 2).perform Rule.stmt.read
      = (.error (.rejected ⟨.notCondition, ["a"], some 2, some 4⟩),
        ⟨tokenize "wait;\n\u2028if(a", 4⟩)
    ∧ ["a"] = wordsBetween (tokenize "wait;\n\u2028if(a") 4 9
    ∧ ∃ (number column : Nat) (line : List Char),
      1 ≤ number ∧ some (2 : Int) = some (number : Int)
      ∧ some (4 : Int) = some (column : Int)
      ∧ ("wait;\n\u2028if(a".toList.splitOn '\n')[number - 1]? = some line
      ∧ "a".toList <+: line.drop column := by
  have htokens : tokenize "wait;\n\u2028if(a"
      = [⟨"wait", ⟨1, 0⟩⟩, ⟨";", ⟨1, 4⟩⟩, ⟨"if", ⟨2, 1⟩⟩, ⟨"(", ⟨2, 3⟩⟩,
        ⟨"a", ⟨2, 4⟩⟩] := by decide
  have hread : (Cursor.mk (tokenize "wait;\n\u2028if(a") 2).perform
        Rule.stmt.read
      = (.error (.rejected ⟨.notCondition, ["a"], some 2, some 4⟩),
        ⟨tokenize "wait;\n\u2028if(a", 4⟩) := by
    rw [htokens]
    rfl
  have hp : 2 ≤ (tokenize "wait;\n\u2028if(a").length := by
    rw [htokens]
    decide
  obtain ⟨hcontext, -⟩ := failure_points_at_stop.1 _ _ _ _ _ hp hread
  exact ⟨hread, hcontext,
    failure_points_at_stop.2 _ _ _ _ _ hp hread "a" rfl⟩

end RobotLang
