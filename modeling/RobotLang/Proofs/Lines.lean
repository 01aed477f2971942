/-
One statement a line.

No statement's text goes over a line end, so the lines of a program's text
are the texts of its statements, and the tokens on a line are those of one
statement (`Proofs/Token/Lines`). A statement begins with a word, which
stands in the first column of its line.

If a line is replaced by another, the lines in front of it are still those
of whole statements, with which a program begins. So what is wrong with the
new text is reported on that line or further down, or at the end of input:
the report is about the first word that no program goes on with
(`Rule.viable_take_iff`), and none of those words is in front of the new
line.
-/
import RobotLang.Proofs.FailurePlace
import RobotLang.Proofs.FirstError
import RobotLang.Proofs.RoundTrip
import RobotLang.Proofs.Token.Composition
import RobotLang.Proofs.Token.Lines
import RobotLang.Proofs.Tree.Plain

namespace RobotLang

open Text

-- ============================================================ the lines

theorem Stmt.texts_eq (ss : List Stmt) : Stmt.texts ss = ss.map Stmt.text := by
  induction ss with
  | nil => rfl
  | cons s ss ih => rw [Stmt.texts, ih, List.map_cons]

/-- The lines of a program's text. -/
def Program.lines (p : Program) : List (List Char) :=
  p.statements.map fun s => s.text.toList

namespace Program

variable {p : Program}

theorem toList_text (p : Program) :
    p.text.toList = ['\n'].intercalate p.lines := by
  unfold text lines
  rw [String.toList_intercalate, Stmt.texts_eq, List.map_map]
  rfl

theorem newline_notMem_lines (p : Program) :
    ∀ line ∈ p.lines, '\n' ∉ line := by
  intro line hline
  obtain ⟨s, -, rfl⟩ := List.mem_map.1 hline
  exact s.isVisible_text.newline_notMem

theorem splitOn_text (hp : p.statements ≠ []) :
    p.text.toList.splitOn '\n' = p.lines := by
  rw [toList_text]
  refine List.splitOn_intercalate '\n' p.newline_notMem_lines ?_
  simpa [lines] using hp

end Program

-- ============================================================ the tokens

/-- A statement begins with a word. -/
theorem Stmt.goesOn_text (s : Stmt) : Lexeme.goesOn s.text.toList = true := by
  have hword (w rest : String) (hw : Lexeme.goesOn w.toList = true) :
      Lexeme.goesOn (w ++ rest).toList = true := by
    rw [String.toList_append, Lexeme.goesOn_append, hw]
    split
    · next hnil => rw [hnil] at hw; cases hw
    · rfl
  cases s with
  | once a => cases a <;> rfl
  | times a e =>
      cases a <;> simp only [Stmt.text, String.append_assoc] <;>
        exact hword _ _ rfl
  | loop b => exact hword _ _ rfl
  | whileDo c b | ifThen c b | ifElse c b o =>
      simp only [Stmt.text, String.append_assoc]
      exact hword _ _ rfl

/-- A text that begins with a word has a token where it begins. -/
theorem tokenize_eq_cons {text : String}
    (h : Lexeme.goesOn text.toList = true) :
    ∃ w later, tokenize text = ⟨w, Place.start⟩ :: later := by
  obtain ⟨w, rest, hsplit, hne, hw, hrest⟩ := exists_word_of_goesOn h
  refine ⟨String.ofList w,
    (Lexeme.scan (Place.start.after w) rest).map Lexeme.token, ?_⟩
  unfold tokenize
  rw [hsplit, Lexeme.scan_word hne hw hrest, List.map_cons]
  rfl

/-- The tokens of lines, of which the first one has that number. -/
def tokensOf (n : Int) (lines : List (List Char)) : List Token :=
  (Lexeme.scanLines n lines).map Lexeme.token

theorem tokenize_eq_tokensOf {lines : List (List Char)}
    (h : ∀ line ∈ lines, '\n' ∉ line) :
    tokenize (String.ofList (['\n'].intercalate lines))
      = tokensOf 1 lines := by
  unfold tokenize tokensOf
  rw [String.toList_ofList, ← Lexeme.scan_lines 1 h]
  rfl

theorem tokensOf_append (n : Int) (front back : List (List Char)) :
    tokensOf n (front ++ back)
      = tokensOf n front ++ tokensOf (n + front.length) back := by
  unfold tokensOf
  rw [Lexeme.scanLines_append, List.map_append]

theorem line_of_mem_tokensOf {n : Int} {lines : List (List Char)}
    (h : ∀ line ∈ lines, '\n' ∉ line) {t : Token}
    (ht : t ∈ tokensOf n lines) :
    n ≤ t.place.line ∧ t.place.line < n + lines.length := by
  obtain ⟨l, hl, rfl⟩ := List.mem_map.1 ht
  exact Lexeme.line_of_mem_scanLines h hl

-- ============================================================= failures

/-- If some program begins with the tokens in front, a failure is about none
of them. -/
theorem Program.le_line_of_rejected {front back : List Token} {f : Failure}
    (hfront : Viable (front.map Token.value))
    (h : ofTokens (front ++ back) = .error (.rejected f)) {n : Int}
    (hback : ∀ t ∈ back, n ≤ t.place.line) {l : Int}
    (hl : f.line = some l) : n ≤ l := by
  obtain ⟨rest, hread⟩ := ofTokens_eq_error_iff.1 h
  have hplain : Reading.Plain (Rule.program.upTo (front ++ back).length) :=
    .upTo _ _
  have hfailure : f = .before f.reason rest := hplain.failure_eq hread
  have hrest := List.suffix_iff_eq_drop.1 (hplain.suffix_of_error hread)
  rw [hrest] at hread
  -- the words in front are viable, so reading has gone past them
  have hpast := (Rule.viable_take_iff hread
    (i := front.length) (by simp)).1 (by rwa [List.take_left])
  rw [hfailure, hrest, Failure.before_drop_line] at hl
  obtain ⟨t, ht, rfl⟩ := Option.map_eq_some_iff.1 hl
  rw [List.getElem?_append_right hpast] at ht
  exact hback t (List.mem_of_getElem? ht)

/-- The text with one of its lines replaced. -/
def Program.withLine (p : Program) (i : Nat) (new : String) : String :=
  String.ofList (['\n'].intercalate
    ((p.text.toList.splitOn '\n').set i new.toList))

/-- The tokens in front of a replaced line are those of the statements in
front, and the others stand on that line or further down. -/
theorem Program.tokenize_withLine {p : Program} (hp : p.statements ≠ [])
    {i : Nat} (hi : i < p.statements.length) {new : String}
    (hnew : '\n' ∉ new.toList) :
    ∃ front back more, tokenize (p.withLine i new) = front ++ back
      ∧ tokenize p.text = front ++ more
      ∧ ∀ t ∈ back, (i : Int) + 1 ≤ t.place.line := by
  have hlines := p.newline_notMem_lines
  have hlt : i < p.lines.length := by simpa [lines] using hi
  have hlength : (p.lines.take i).length = i := by
    rw [List.length_take]
    omega
  have hset : p.lines.set i new.toList
      = p.lines.take i ++ (new.toList :: p.lines.drop (i + 1)) := by
    rw [List.set_eq_take_append_cons_drop, if_pos hlt]
  have hback : ∀ line ∈ new.toList :: p.lines.drop (i + 1),
      '\n' ∉ line := by
    intro line hline
    rcases List.mem_cons.1 hline with rfl | hline
    · exact hnew
    · exact hlines line (List.mem_of_mem_drop hline)
  have hall : ∀ line ∈ p.lines.take i ++ (new.toList :: p.lines.drop (i + 1)),
      '\n' ∉ line := by
    intro line hline
    rcases List.mem_append.1 hline with hline | hline
    · exact hlines line (List.mem_of_mem_take hline)
    · exact hback line hline
  refine ⟨tokensOf 1 (p.lines.take i),
    tokensOf (1 + i) (new.toList :: p.lines.drop (i + 1)),
    tokensOf (1 + i) (p.lines.drop i), ?_, ?_, ?_⟩
  · rw [withLine, splitOn_text hp, hset, tokenize_eq_tokensOf hall,
      tokensOf_append, hlength]
  · rw [← String.ofList_toList (s := p.text), toList_text,
      tokenize_eq_tokensOf hlines]
    conv_lhs => rw [← List.take_append_drop i p.lines]
    rw [tokensOf_append, hlength]
  · intro t ht
    have hline := line_of_mem_tokensOf hback ht
    omega

-- ======================================================== the statements

/-- The text of a program has one line for each statement. Its lines are
the texts of the statements; the tokens on a line are those of its
statement, of which the first stands in the first column, and there are
none on other lines. If a line is replaced by any text on one line, a
failure is reported at the end of input, or on that line or further down. -/
theorem Program.one_statement_a_line (p : Program) (hp : p.statements ≠ [])
    (hshort : AllShort (Tree.program p).numbers) :
    p.text.toList.splitOn '\n' = (p.statements.map fun s => s.text.toList)
    ∧ (∀ (i : Nat) (s : Stmt), p.statements[i]? = some s →
      ∃ w later, (tokenize s.text).map (Token.onLine (i + 1))
          = ⟨w, ⟨i + 1, 0⟩⟩ :: later
        ∧ (tokenize p.text).filter (fun t => t.place.line = (i : Int) + 1)
          = ⟨w, ⟨i + 1, 0⟩⟩ :: later)
    ∧ (∀ t ∈ tokenize p.text,
      1 ≤ t.place.line ∧ t.place.line ≤ p.statements.length)
    ∧ ∀ (i : Nat) (new : String) (f : Failure), i < p.statements.length →
      '\n' ∉ new.toList →
      ofText (p.withLine i new) = .error (.rejected f) →
      f.line = none ∨ ∃ l, f.line = some l ∧ (i : Int) + 1 ≤ l := by
  have hlines := p.newline_notMem_lines
  have htext : p.text = String.ofList (['\n'].intercalate p.lines) := by
    rw [← toList_text, String.ofList_toList]
  refine ⟨splitOn_text hp, fun i s hs => ?_, fun t ht => ?_,
    fun i new f hi hnew h => ?_⟩
  · have hline : p.lines[i]? = some s.text.toList := by
      rw [lines, List.getElem?_map, hs]
      rfl
    have htokens := tokenize_lines hlines hline
    rw [← htext, String.ofList_toList] at htokens
    obtain ⟨w, later, hbegins⟩ := tokenize_eq_cons s.goesOn_text
    refine ⟨w, later.map (Token.onLine (i + 1)), ?_, ?_⟩
    · rw [hbegins]
      rfl
    · rw [htokens, hbegins]
      rfl
  · rw [htext, tokenize_eq_tokensOf hlines] at ht
    have hline := line_of_mem_tokensOf hlines ht
    rw [lines, List.length_map] at hline
    omega
  · obtain ⟨front, back, more, hnewTokens, htokens, hback⟩ :=
      tokenize_withLine hp hi hnew
    have hviable : Viable (front.map Token.value) := by
      refine ⟨tokenize p.text, p, ?_, ofText_text hp hshort⟩
      rw [htokens, List.map_append]
      exact List.prefix_append _ _
    unfold ofText at h
    rw [hnewTokens] at h
    cases hline : f.line with
    | none => exact .inl rfl
    | some l =>
        exact .inr ⟨l, rfl, le_line_of_rejected hviable h hback hline⟩

/-- Of two lines the second one is replaced by one that lacks a
semicolon. -/
theorem Program.one_statement_a_line_turn :
    let p : Program := ⟨[.times .move (.number 3), .loop [.once .turnLeft]]⟩
    let f : Failure := ⟨.noSemicolon, ["turnL", ";"], some 2, some 5⟩
    (p.statements ≠ [] ∧ AllShort (Tree.program p).numbers)
    ∧ p.text.toList.splitOn '\n'
      = (p.statements.map fun s => s.text.toList)
    ∧ (p.statements[1]? = some (.loop [.once .turnLeft])
      ∧ ∃ w later,
        (tokenize p.text).filter (fun t => t.place.line = (2 : Int))
          = ⟨w, ⟨2, 0⟩⟩ :: later)
    ∧ (⟨";", ⟨1, 7⟩⟩ ∈ tokenize p.text ∧ p.statements.length = 2)
    ∧ ofText (p.withLine 1 "wait turnL;") = .error (.rejected f)
    ∧ (f.line = none ∨ ∃ l, f.line = some l ∧ 2 ≤ l) := by
  intro p f
  have hp : p.statements ≠ [] := List.cons_ne_nil _ _
  have hshort : AllShort (Tree.program p).numbers := by decide
  have htext : p.text = "move(3);\nloop \x7b turnL; \x7d" := by
    decide +kernel
  have hnew : p.withLine 1 "wait turnL;" = "move(3);\nwait turnL;" := by
    decide +kernel
  have htokens : tokenize "move(3);\nwait turnL;"
      = [⟨"move", ⟨1, 0⟩⟩, ⟨"(", ⟨1, 4⟩⟩, ⟨"3", ⟨1, 5⟩⟩, ⟨")", ⟨1, 6⟩⟩,
        ⟨";", ⟨1, 7⟩⟩, ⟨"wait", ⟨2, 0⟩⟩, ⟨"turnL", ⟨2, 5⟩⟩,
        ⟨";", ⟨2, 10⟩⟩] := by decide +kernel
  have hmem : ⟨";", ⟨1, 7⟩⟩ ∈ tokenize p.text := by
    rw [htext]
    decide +kernel
  have herror : ofText (p.withLine 1 "wait turnL;")
      = .error (.rejected f) := by
    rw [hnew, ofText, htokens]
    rfl
  obtain ⟨hsplit, hline, -, hfailure⟩ := one_statement_a_line p hp hshort
  obtain ⟨w, later, -, hfilter⟩ := hline 1 _ rfl
  exact ⟨⟨hp, hshort⟩, hsplit, ⟨rfl, w, later, hfilter⟩, ⟨hmem, rfl⟩, herror,
    hfailure 1 "wait turnL;" f (by decide) (by decide) herror⟩

end RobotLang
