/-
Layout does not matter to reading.

Two token lists with the same words in the same order are read alike, at
whatever places their tokens stand: with the same tree, or refused at the
same token with the same reason and the same context. Places go into a
failure and nowhere else, and whether a failure has a place is settled by
whether a token is left.

The two lists fall into what is taken and what is left at the same point,
because their words are the same. There a plain reading ends alike on both
(`Plain.outcome_alike`), and its failure is built from what is left
(`Plain.failure_eq`), of which only the places can differ.
-/
import RobotLang.Proofs.Cursor
import RobotLang.Source

namespace RobotLang

open Reading

variable {α : Type} {tokens tokens' : List Token}

-- ======================================================= without places

/-- The same failure, but for where its line and column are, if it has
them. -/
structure Failure.SameButPlace (f g : Failure) : Prop where
  reason : f.reason = g.reason
  context : f.context = g.context
  line : f.line = none ↔ g.line = none
  column : f.column = none ↔ g.column = none

/-- The same value, or the same refusal but for the place of a failure. -/
def SameButPlace : Except Refusal α → Except Refusal α → Prop
  | .ok a, .ok b => a = b
  | .error (.rejected f), .error (.rejected g) => f.SameButPlace g
  | .error (.tooLong m), .error (.tooLong n) => m = n
  | _, _ => False

/-- A failure in front of tokens shows of them their words, and whether
there are any. -/
theorem Failure.before_sameButPlace {rest rest' : List Token}
    (h : rest.map Token.value = rest'.map Token.value) (reason : Reason) :
    (before reason rest).SameButPlace (before reason rest') := by
  have hnil : rest = [] ↔ rest' = [] := by
    rw [← List.map_eq_nil_iff (f := Token.value), h, List.map_eq_nil_iff]
  refine ⟨rfl, ?_, ?_, ?_⟩
  · simp [before, List.map_take, h]
  · simpa [before] using hnil
  · simpa [before] using hnil

-- ============================================================= readings

/-- A plain reading on tokens with the same words leaves the same words and
ends the same but for places. -/
theorem Reading.Plain.sameButPlace {r : Reading α} (hr : Plain r)
    (h : tokens.map Token.value = tokens'.map Token.value) :
    SameButPlace (outcome (r tokens)) (outcome (r tokens'))
      ∧ (left (r tokens)).map Token.value
        = (left (r tokens')).map Token.value := by
  -- both lists are cut where the first reading stops
  obtain ⟨taken, htaken⟩ := hr.left_suffix tokens
  have hsplit : tokens'.map Token.value
      = taken.map Token.value ++ (left (r tokens)).map Token.value := by
    rw [← h, ← List.map_append, htaken]
  obtain ⟨taken', rest', rfl, hv, hrest⟩ := List.map_eq_append_iff.1 hsplit
  have hnext : nextWord (left (r tokens)) = nextWord rest' := by
    unfold nextWord
    rw [← List.head?_map, ← List.head?_map, hrest]
  have hcut : left (r (taken ++ left (r tokens))) = left (r tokens) := by
    rw [htaken]
  obtain ⟨halike, hleft'⟩ := hr.outcome_alike hv.symm hnext hcut
  rw [htaken] at halike
  have hwords : (left (r tokens)).map Token.value
      = (left (r (taken' ++ rest'))).map Token.value := by
    rw [hleft', hrest]
  refine ⟨?_, hwords⟩
  rcases hr.outcome_cases halike with
    ⟨a, ha, ha'⟩ | ⟨n, hn, hn'⟩ | ⟨reason, hf, hf'⟩
  · rw [ha, ha']
    exact rfl
  · rw [hn, hn']
    exact rfl
  · rw [hf, hf']
    exact Failure.before_sameButPlace hwords reason

/-- A rule on tokens with the same words leaves the same words and ends the
same but for places. -/
theorem Rule.read_sameButPlace (rule : Rule)
    (h : tokens.map Token.value = tokens'.map Token.value) :
    SameButPlace (outcome (rule.read tokens)) (outcome (rule.read tokens'))
      ∧ (left (rule.read tokens)).map Token.value
        = (left (rule.read tokens')).map Token.value := by
  have hlength : tokens'.length = tokens.length := by
    simpa using congrArg List.length h.symm
  unfold read
  rw [hlength]
  exact (Plain.upTo tokens.length rule).sameButPlace h

/-- From the same place a rule stops at the same place on tokens with the
same words, and ends the same but for places. -/
theorem Cursor.perform_sameButPlace (rule : Rule)
    (h : tokens.map Token.value = tokens'.map Token.value) {p : Nat}
    (hp : p ≤ tokens.length) :
    ∃ q o o', q ≤ tokens.length
      ∧ (Cursor.mk tokens p).perform rule.read = (o, ⟨tokens, q⟩)
      ∧ (Cursor.mk tokens' p).perform rule.read = (o', ⟨tokens', q⟩)
      ∧ SameButPlace o o' := by
  have hlength : tokens.length = tokens'.length := by
    simpa using congrArg List.length h
  have hdrop : (tokens.drop p).map Token.value
      = (tokens'.drop p).map Token.value := by
    rw [List.map_drop, h, List.map_drop]
  obtain ⟨hsame, hwords⟩ := rule.read_sameButPlace hdrop
  have hleft : (Reading.left (rule.read (tokens.drop p))).length
      = (Reading.left (rule.read (tokens'.drop p))).length := by
    simpa using congrArg List.length hwords
  have hp' : p ≤ tokens'.length := by omega
  obtain ⟨hpq, hrest⟩ :=
    place_of_suffix hp (rule.read_suffix (tokens.drop p))
  obtain ⟨-, hrest'⟩ :=
    place_of_suffix hp' (rule.read_suffix (tokens'.drop p))
  -- as many tokens are left in both, so both stop at this place
  rw [← hleft, ← hlength] at hrest'
  have hq := Nat.sub_le tokens.length
    (Reading.left (rule.read (tokens.drop p))).length
  refine ⟨_, outcome (rule.read (tokens.drop p)),
    outcome (rule.read (tokens'.drop p)), hq, ?_, ?_, hsame⟩
  · exact (perform_iff rule.read_suffix hp).2 ⟨hpq, hq, rfl, hrest⟩
  · exact (perform_iff rule.read_suffix hp').2
      ⟨hpq, hlength ▸ hq, rfl, hrest'⟩

-- ============================================================ programs

/-- A program is read from tokens with the same words alike, but for
places. -/
theorem Program.ofTokens_sameButPlace
    (h : tokens.map Token.value = tokens'.map Token.value) :
    SameButPlace (ofTokens tokens) (ofTokens tokens') := by
  have houtcome : ∀ ts : List Token,
      ofTokens ts = outcome (Reading.program ts.length ts) := by
    intro ts
    unfold ofTokens
    cases Reading.program ts.length ts <;> rfl
  have hlength : tokens'.length = tokens.length := by
    simpa using congrArg List.length h.symm
  rw [houtcome, houtcome, hlength]
  exact ((Plain.program tokens.length).sameButPlace h).1

/-- What is logged as a text is parsed depends on its words. -/
theorem Source.parseText_sameButPlace {text text' : String}
    (h : (tokenize text).map Token.value
      = (tokenize text').map Token.value) :
    (parseText text).1 = (parseText text').1
      ∧ SameButPlace (parseText text).2 (parseText text').2 := by
  have hlength : (tokenize text).length = (tokenize text').length := by
    simpa using congrArg List.length h
  have hsame := Program.ofTokens_sameButPlace h
  unfold parseText
  dsimp only
  rw [hlength]
  cases hres : Program.ofTokens (tokenize text) with
  | ok p =>
      cases hres' : Program.ofTokens (tokenize text') with
      | ok p' =>
          rw [hres, hres'] at hsame
          have hp : p = p' := hsame
          rw [hp]
          exact ⟨rfl, rfl⟩
      | error e' =>
          rw [hres, hres'] at hsame
          exact hsame.elim
  | error e =>
      cases hres' : Program.ofTokens (tokenize text') with
      | ok p' =>
          rw [hres, hres'] at hsame
          exact False.elim (by cases e <;> exact hsame)
      | error e' =>
          rw [hres, hres'] at hsame
          exact ⟨rfl, hsame⟩

/-- Layout never matters: two texts with the same words in the same order
are read alike by every rule from every place, and parsed alike. Both
readings stop at the same token, with the same tree, or the same reason and
context, or the same number of digits; only the line and the column of a
failure may differ, and it has them in both or in neither. -/
theorem Cursor.layout_never_matters (text text' : String)
    (h : (tokenize text).map Token.value
      = (tokenize text').map Token.value) :
    (∀ (rule : Rule) (p : Nat), p ≤ (tokenize text).length →
      ∃ q o o', q ≤ (tokenize text).length
        ∧ (Cursor.mk (tokenize text) p).perform rule.read
          = (o, ⟨tokenize text, q⟩)
        ∧ (Cursor.mk (tokenize text') p).perform rule.read
          = (o', ⟨tokenize text', q⟩)
        ∧ SameButPlace o o')
    ∧ (Source.parseText text).1 = (Source.parseText text').1
    ∧ SameButPlace (Source.parseText text).2 (Source.parseText text').2 :=
  ⟨fun rule _ hp => perform_sameButPlace rule h hp,
    Source.parseText_sameButPlace h⟩

theorem Cursor.layout_never_matters_move :
    (tokenize "move
  x").map Token.value
        = (tokenize " move x").map Token.value
    ∧ (Cursor.ofText "move
  x").perform Rule.stmt.read
      = (.error (.rejected ⟨.noSemicolon, ["x"], some 2, some 2⟩),
        ⟨tokenize "move
  x", 1⟩)
    ∧ (Cursor.ofText " move x").perform Rule.stmt.read
      = (.error (.rejected ⟨.noSemicolon, ["x"], some 1, some 6⟩),
        ⟨tokenize " move x", 1⟩)
    ∧ Failure.SameButPlace ⟨.noSemicolon, ["x"], some 2, some 2⟩
      ⟨.noSemicolon, ["x"], some 1, some 6⟩ := by
  have htokens : tokenize "move
  x"
      = [⟨"move", ⟨1, 0⟩⟩, ⟨"x", ⟨2, 2⟩⟩] := by decide
  have htokens' : tokenize " move x"
      = [⟨"move", ⟨1, 1⟩⟩, ⟨"x", ⟨1, 6⟩⟩] := by decide
  have hwords : (tokenize "move
  x").map Token.value
      = (tokenize " move x").map Token.value := by
    rw [htokens, htokens']
    rfl
  have hread : (Cursor.ofText "move
  x").perform Rule.stmt.read
      = (.error (.rejected ⟨.noSemicolon, ["x"], some 2, some 2⟩),
        ⟨tokenize "move
  x", 1⟩) := by
    rw [ofText, htokens]
    rfl
  have hread' : (Cursor.ofText " move x").perform Rule.stmt.read
      = (.error (.rejected ⟨.noSemicolon, ["x"], some 1, some 6⟩),
        ⟨tokenize " move x", 1⟩) := by
    rw [ofText, htokens']
    rfl
  obtain ⟨q, o, o', -, ho, ho', hsame⟩ :=
    (layout_never_matters _ _ hwords).1 .stmt 0 (Nat.zero_le _)
  refine ⟨hwords, hread, hread', ?_⟩
  obtain ⟨rfl, -⟩ := Prod.mk.inj (ho.symm.trans hread)
  obtain ⟨rfl, -⟩ := Prod.mk.inj (ho'.symm.trans hread')
  exact hsame

end RobotLang
