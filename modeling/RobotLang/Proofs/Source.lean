/-
What is found in a file that is to be parsed.

The drivers open a file, parse its text and deal with what goes wrong, each
in its own way and order. What they have in common is the finding: a
program or a syntax error in so many tokens, a numeral that is too long, or
why there is no text. What a driver does with a file depends on the finding
alone, so drivers are compared finding by finding.
-/
import RobotLang.Source

namespace RobotLang

open Text

-- ================================================================= names

theorem Text.Encoding.ofName?_name (e : Encoding) :
    ofName? e.name = some e := by
  cases e <;> decide +kernel

theorem Text.Encoding.hasNul_name (e : Encoding) :
    FileTree.hasNul e.name = false := by
  cases e <;> decide

namespace Source

variable {files : FileTree} {encoding name source : String}

-- ================================================================= text

/-- The text of a file that can be read. -/
theorem text_of_content {e : Encoding} {bytes : Bytes}
    (hnul : FileTree.hasNul encoding = false)
    (hname : Encoding.ofName? encoding = some e)
    (h : files.content name = .ok bytes) :
    text files encoding name
      = ((decode e bytes).mapError Trouble.undecodable).map fun cs =>
          String.ofList (unifyLineEnds cs) := by
  unfold text
  rw [hnul, hname, h]
  dsimp only
  rw [if_neg (by simp)]
  show ((decode e bytes).mapError Trouble.undecodable >>= fun cs =>
    pure (String.ofList (unifyLineEnds cs))) = _
  cases decode e bytes <;> rfl

/-- The text of a file that can be read, in an encoding by its own name. -/
theorem text_of_bytes (e : Encoding) {bytes : Bytes}
    (h : files.content name = .ok bytes) :
    text files e.name name
      = ((decode e bytes).mapError Trouble.undecodable).map fun cs =>
          String.ofList (unifyLineEnds cs) :=
  text_of_content e.hasNul_name e.ofName?_name h

/-- The fault of a file that cannot be read. -/
theorem text_of_fault {fault : FileFault}
    (hnul : FileTree.hasNul encoding = false)
    (h : files.content name = .error fault) :
    text files encoding name = .error (.file fault) := by
  unfold text
  rw [hnul, h]
  rfl

-- ============================================================== finding

/-- The program of a text, without the records. -/
theorem parseText_result (source : String) :
    (parseText source).2 = Program.ofText source := by
  unfold parseText Program.ofText
  dsimp only
  cases Program.ofTokens (tokenize source) <;> rfl

/-- What a named file holds. The text was split into so many tokens, if
there was one. -/
inductive Finding
  | program (tokens : Nat) (p : Program)
  | malformed (tokens : Nat) (failure : Failure)
  | tooLong (tokens digits : Nat)
  | denied (why : Denial) (name : String)
  | textless (e : Trouble)

/-- What is found in a text. -/
def foundIn (source : String) : Finding :=
  let tokens := (tokenize source).length
  match Program.ofText source with
  | .ok p => .program tokens p
  | .error (.rejected f) => .malformed tokens f
  | .error (.tooLong n) => .tooLong tokens n

/-- What is found in the named file. -/
def found (files : FileTree) (encoding name : String) : Finding :=
  match text files encoding name with
  | .ok source => foundIn source
  | .error (.file (.denied d n)) => .denied d n
  | .error e => .textless e

namespace Finding

/-- What is logged of it under the name of the file. -/
def records (name : String) : Finding → List Record
  | program tokens p => [tokenized tokens, counted p, parsed name]
  | malformed tokens f => [tokenized tokens, Source.malformed name f]
  | tooLong tokens _ => [tokenized tokens]
  | denied d n => [unreadable name (.denied d n)]
  | textless _ => []

/-- The program, if there is one, or the trouble that it is. -/
def program? : Finding → Except Trouble (Option Program)
  | program _ p => .ok (some p)
  | malformed _ _ => .ok none
  | tooLong _ n => .error (.tooLong n)
  | denied _ _ => .ok none
  | textless e => .error e

theorem program?_eq_some_iff {finding : Finding} {p : Program} :
    finding.program? = .ok (some p)
      ↔ ∃ tokens, finding = .program tokens p := by
  cases finding <;> simp [program?]

end Finding

/-- Parsing a file logs and gives what the finding says. -/
theorem parseFile_eq (files : FileTree) (encoding name : String) :
    parseFile files encoding name
      = ((found files encoding name).records name,
          (found files encoding name).program?) := by
  unfold parseFile found
  rcases htext : text files encoding name with e | source
  · rcases e with _ | fault | _ | _ | _ | _ | _
    · rfl
    · cases fault <;> rfl
    all_goals rfl
  · unfold foundIn parseText Program.ofText
    dsimp only
    rcases Program.ofTokens (tokenize source) with refusal | p
    · cases refusal <;> rfl
    · rfl

theorem found_of_text (h : text files encoding name = .ok source) :
    found files encoding name = foundIn source := by
  unfold found
  rw [h]

theorem found_of_denied {d : Denial} {n : String}
    (h : text files encoding name = .error (.file (.denied d n))) :
    found files encoding name = .denied d n := by
  unfold found
  rw [h]

end Source

end RobotLang
