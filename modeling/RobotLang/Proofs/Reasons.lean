/-
The reasons of syntax errors are truthful.

Where the reading of a program is rejected, each word that the reason asks
for could have come: some program begins with the tokens taken and goes on
with that word. The reason that nothing is left is given only at the end,
and only where a nonterminal has to start: any phrase of it could come
there, and every program that begins with these tokens goes on with one.
Some reasons never come out of a program, because the rules that give them
are entered only by the words that they ask for.

A reading accounts for its stops behind the tokens themselves
(`accounts_read`). That is turned into a statement about programs here:
what the rule for programs has taken begins a program, and what it faces
comes next in every program that begins so.
-/
import RobotLang.Proofs.FirstError
import RobotLang.Proofs.Reading.Begun

namespace RobotLang

open Reading

/-- A phrase of the rule has to come behind the words: any phrase of it
may, and in every program that begins with the words one does. -/
structure Demands (ws : List String) (rule : Rule) : Prop where
  possible : ∀ t u, Phrase rule id t u → Viable (ws ++ u)
  needed : ∀ tokens p more, Program.ofTokens tokens = .ok p →
    tokens.map Token.value = ws ++ more →
    ∃ t u, Phrase rule id t u ∧ u <+: more

-- ======================================================= from the reading

theorem Viable.of_begins {ws : List String}
    (h : Rule.program.Begins ws) : Viable ws := by
  obtain ⟨t, more, hphrase⟩ := h
  have hkind : t.rule = .program := hphrase.1.rule_eq
  cases t with
  | program p => exact .of_phrase hphrase
  | _ => cases hkind

/-- A word that is granted is viable behind the tokens. -/
theorem viable_of_grants {taken : List Token} {w : String}
    (h : Grants Rule.program.read taken w) (hw : Legible [w]) :
    Viable (taken.map Token.value ++ [w]) := by
  have hleft := h ⟨w, .start⟩ [] rfl
  exact .of_begins (Rule.begins_of_taken (List.suffix_nil.1 hleft) hw)

/-- A nonterminal that is faced has to come behind the tokens. -/
theorem demands_of_faces {taken : List Token} {rule : Rule}
    (hrule : rule ≠ .program) (h : Faces Rule.program.read taken rule) :
    Demands (taken.map Token.value) rule where
  possible _ _ hu := .of_begins (Rule.begins_of_faces hrule h hu)
  needed := by
    intro tokens p more hp htokens
    obtain ⟨taken', toks, rfl, htaken, hmore⟩ :=
      List.map_eq_append_iff.1 htokens
    obtain ⟨β, tree, s, g, hread, -, hfaces⟩ := h
    obtain ⟨hne, hphrase⟩ := Program.ofTokens_eq_ok_iff.1 hp
    -- the places of the tokens make no difference
    have hsame : (taken' ++ toks).map Token.value
        = (taken ++ toks).map Token.value := by
      rw [List.map_append, List.map_append, htaken]
    have htoks : taken ++ toks ≠ [] := by
      intro hnil
      rw [hnil] at hsame
      exact hne (List.map_eq_nil_iff.1 hsame)
    have hprogram : Rule.program.read (taken ++ toks)
        = .ok (.program p) [] := by
      refine Rule.read_of_phrase htoks ?_
      rw [← hsame]
      exact hphrase
    rw [hfaces] at hprogram
    obtain ⟨b, mid, hb, -⟩ := bind_eq_ok_iff.1 hprogram
    have hrule : rule.read toks = .ok (tree b) mid := by
      rw [hread]
      exact bind_eq_ok_iff.2 ⟨b, mid, hb, rfl⟩
    obtain ⟨x, rfl, hx⟩ := (Follows.upTo _ rule).ok hrule
    refine ⟨tree b, x.map Token.value, hx, ?_⟩
    rw [← hmore, List.map_append]
    exact List.prefix_append _ _

/-- Where the reading of a program is rejected, the reason is truthful. -/
theorem Rule.truthful_of_rejected {taken rest : List Token} {f : Failure}
    (h : Rule.program.read (taken ++ rest) = .error (.rejected f) rest) :
    f.reason.Truthful (nextWord rest) (Demands (taken.map Token.value))
      fun w => Viable (taken.map Token.value ++ [w]) := by
  have hwide : Rule.program.opening? = none := rfl
  have hon := (accounts_read hwide _).on
    (Nat.lt_succ_self (taken ++ rest).length)
  exact (hon.rejected rfl h).imp (fun _ => demands_of_faces)
    fun _ hw hgrants => viable_of_grants hgrants hw

-- ===================================================== the reasons' texts

/-- The wordings that no program is rejected with. -/
def Reason.unused : List String :=
  ["Unknown action.", "Not 'loop'.", "Not 'if'.", "Not 'while'.",
    "Expected lt, gt or eq.", "Expected and, or or not.",
    "Entered invalid sensor.", "Expected add, sub, mul or div.",
    "Unexpected end of input"]

/-- A truthful reason has another wording. -/
theorem Reason.Truthful.message_not_mem {reason : Reason}
    {next : Option String} {faces : Rule → Prop} {grants : String → Prop}
    (h : reason.Truthful next faces grants) :
    reason.message ∉ unused := by
  cases reason with
  | unknownStatement w =>
      -- the unused wordings begin otherwise
      have hother : ∀ m ∈ unused,
          ¬ "Unknown statement '".toList <+: m.toList := by simp [unused]
      have hbegins (v : String) : "Unknown statement '".toList
          <+: ("Unknown statement '" ++ v).toList := by
        rw [String.toList_append]
        exact List.prefix_append _ _
      have hmessage : (unknownStatement w).message
          = "Unknown statement '" ++ (w ++ "'") := String.append_assoc
      rw [hmessage]
      exact fun hmem => hother _ hmem (hbegins _)
  | noCommaIn o => cases o <;> decide +kernel
  | notAction | notLoop | notIf | notWhile | notRelation | notConnective
  | notSensor | notOperation | endOfInput | stated m => exact h.elim
  | nothingLeft | noSemicolon | noOpenBrace | noCloseBrace | noOpenParen
  | noCloseParen | noCloseAmount | noComma | notCondition
  | notExpression => decide +kernel

/-- A program is rejected for what is wrong: what the reason asks for could
have come there, and no wording comes out that is not for programs. -/
theorem Cursor.reasons_truthful {tokens : List Token} {f : Failure}
    {q : Nat}
    (h : (ofTokens tokens).perform Rule.program.read
      = (.error (.rejected f), ⟨tokens, q⟩)) :
    f.reason.Truthful (tokens[q]?.map Token.value)
        (Demands ((tokens.take q).map Token.value))
        (fun w => Viable ((tokens.take q).map Token.value ++ [w]))
      ∧ f.reason.message ∉ Reason.unused := by
  obtain ⟨-, -, hread⟩ := (perform_error_iff Rule.program.read_suffix
    (Nat.zero_le tokens.length)).1 h
  have htaken : Rule.program.read (tokens.take q ++ tokens.drop q)
      = .error (.rejected f) (tokens.drop q) := by
    rw [List.take_append_drop]
    exact hread
  have htrue := Rule.truthful_of_rejected htaken
  rw [nextWord_drop] at htrue
  exact ⟨htrue, htrue.message_not_mem⟩

theorem Cursor.reasons_truthful_condition :
    (ofTokens [⟨"if", ⟨1, 0⟩⟩, ⟨"(", ⟨1, 2⟩⟩, ⟨"move", ⟨1, 3⟩⟩]).perform
        Rule.program.read
      = (.error (.rejected (.before .notCondition [⟨"move", ⟨1, 3⟩⟩])),
        ⟨[⟨"if", ⟨1, 0⟩⟩, ⟨"(", ⟨1, 2⟩⟩, ⟨"move", ⟨1, 3⟩⟩], 2⟩)
    ∧ ∀ w ∈ ["lt", "gt", "eq", "and", "or", "not"],
      Viable ["if", "(", w] := by
  have hread : (ofTokens [⟨"if", ⟨1, 0⟩⟩, ⟨"(", ⟨1, 2⟩⟩,
        ⟨"move", ⟨1, 3⟩⟩]).perform Rule.program.read
      = (.error (.rejected (.before .notCondition [⟨"move", ⟨1, 3⟩⟩])),
        ⟨[⟨"if", ⟨1, 0⟩⟩, ⟨"(", ⟨1, 2⟩⟩, ⟨"move", ⟨1, 3⟩⟩], 2⟩) := rfl
  exact ⟨hread, (reasons_truthful hread).1⟩

end RobotLang
