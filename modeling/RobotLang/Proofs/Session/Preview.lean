/-
The two ways to look at a file.

One driver parses a single file and prints its program, the other presents
file after file and logs what is wrong with them. They open files, parse
texts and report troubles each in its own way. What either of them does is
settled by what is found in the file. So they agree on every file: they show
the same program, give the same reason why there is none, or are in the same
trouble.
-/
import RobotLang.Proofs.Session.Printing

namespace RobotLang.Session

variable {s : Session} {name : String} {others : List String}

-- ============================================================ previewing

/-- What previewing a file prints. A file that is trouble prints nothing. -/
def previewed (name : String) : Source.Finding → String
  | .program _ p => "Parsed Program:" ++ "\n" ++ (p.text ++ "\n")
  | .malformed _ f => "Parsing error: " ++ f.text ++ "\n"
  | .denied d n =>
    "Error reading file " ++ name ++ ": " ++ (FileFault.denied d n).message
      ++ "\n"
  | .tooLong _ _ | .textless _ => ""

/-- The exit code of previewing a file, or the trouble that it is. -/
def exitCode : Source.Finding → Except Trouble Nat
  | .program _ _ => .ok 0
  | .malformed _ _ | .denied _ _ => .ok 1
  | .tooLong _ n => .error (.tooLong n)
  | .textless e => .error e

/-- Previewing a file prints what is to be printed of the finding, and ends
with its exit code. -/
theorem Prints.preview (name : String) (others : List String) (s : Session) :
    Prints (Session.preview (name :: others)) s
      (previewed name (Source.found s.files "utf-8" name))
      (exitCode (Source.found s.files "utf-8" name)) := by
  unfold Session.preview
  refine .bind_get ?_
  unfold Source.found
  rcases Source.text s.files "utf-8" name with e | source
  · rcases e with _ | fault | _ | _ | _ | _ | _
    case file =>
      cases fault with
      | denied d n => exact (Prints.print _).instead 1
      | nulInName => exact .throw _
    all_goals exact .throw _
  · unfold Source.foundIn
    dsimp only
    rcases Program.ofText source with refusal | p
    · cases refusal with
      | rejected f => exact (Prints.print _).instead 1
      | tooLong n => exact .throw _
    · exact (Prints.print _).bind fun _ =>
        (Prints.print p.text).instead 0

-- ============================================================ agreement

/-- The lines of a preview as one text. -/
theorem previewed_program (name : String) (tokens : Nat) (p : Program) :
    previewed name (.program tokens p)
      = "Parsed Program:\n" ++ p.text ++ "\n" := by
  unfold previewed
  rw [← String.toList_inj]
  simp

/-- The lines of a presentation as one text. -/
theorem presented_program (tokens : Nat) (p : Program) :
    presented (.program tokens p)
      = "Parsing completed\n" ++ separator ++ "\nProgram:\n" ++ p.text
        ++ "\n" ++ separator ++ "\n" := by
  unfold presented
  rw [← String.toList_inj]
  simp

/-- The exit code is zero for a program and nothing else. -/
theorem exitCode_eq_zero_iff {finding : Source.Finding} :
    exitCode finding = .ok 0 ↔ ∃ p, finding.program? = .ok (some p) := by
  cases finding <;> simp [exitCode, Source.Finding.program?]

/-- Previewing hands the trouble on that parsing is in. -/
theorem exitCode_eq_error_iff {finding : Source.Finding} {e : Trouble} :
    exitCode finding = .error e ↔ finding.program? = .error e := by
  cases finding <;> simp [exitCode, Source.Finding.program?]

/-- Presenting hands the trouble on that parsing is in. -/
theorem map_program?_eq_error_iff {finding : Source.Finding} {e : Trouble} :
    (finding.program?.map fun _ => ()) = .error e
      ↔ finding.program? = .error e := by
  cases finding <;> simp [Except.map, Source.Finding.program?]

/-- Both drivers agree on every file. Previewing it ends with code zero if
and only if parsing it gives a program, and both drivers then show the same
program. If its text is none, previewing gives the failure that parsing
logs; if it cannot be opened, both give the same fault. And previewing,
parsing and presenting it are in the same trouble, if in any. -/
theorem preview_agrees (s : Session) (name : String) (others : List String) :
    let parsed := Source.parseFile s.files "utf-8" name
    let previewing := preview (name :: others)
    let presenting := present "utf-8" name
    ((∃ text, Prints previewing s text (.ok 0))
      ↔ ∃ p, parsed.2 = .ok (some p))
    ∧ (∀ p, parsed.2 = .ok (some p) →
      Prints previewing s ("Parsed Program:\n" ++ p.text ++ "\n") (.ok 0)
      ∧ Prints presenting s
        ("Parsing completed\n" ++ separator ++ "\nProgram:\n" ++ p.text
          ++ "\n" ++ separator ++ "\n") (.ok ()))
    ∧ (∀ source f, Source.text s.files "utf-8" name = .ok source →
      (Source.parseText source).2 = .error (.rejected f) →
      parsed = ([Source.tokenized (tokenize source).length,
        ⟨"logic", .error, "Parser error in " ++ name ++ ":\n" ++ f.text⟩],
        .ok none)
      ∧ Prints previewing s ("Parsing error: " ++ f.text ++ "\n") (.ok 1))
    ∧ (∀ d n, Source.text s.files "utf-8" name = .error (.file (.denied d n)) →
      parsed = ([⟨"logic", .error, "Robot program source file " ++ name
        ++ " could not be read: " ++ (FileFault.denied d n).message⟩],
        .ok none)
      ∧ Prints previewing s ("Error reading file " ++ name ++ ": "
        ++ (FileFault.denied d n).message ++ "\n") (.ok 1))
    ∧ ∀ e, ((∃ text, Prints previewing s text (.error e))
        ↔ parsed.2 = .error e)
      ∧ ((∃ text, Prints presenting s text (.error e))
        ↔ parsed.2 = .error e) := by
  intro parsed previewing presenting
  have hparsed := Source.parseFile_eq s.files "utf-8" name
  have hpreview := Prints.preview name others s
  have hpresent := Prints.present "utf-8" name s
  refine ⟨?_, ?_, ?_, ?_, ?_⟩
  · show _ ↔ ∃ p, (Source.parseFile s.files "utf-8" name).2 = .ok (some p)
    rw [hpreview.ends_iff, hparsed, exitCode_eq_zero_iff]
  · intro p hp
    have hp' : (Source.parseFile s.files "utf-8" name).2 = .ok (some p) := hp
    rw [hparsed] at hp'
    obtain ⟨tokens, hfound⟩ := Source.Finding.program?_eq_some_iff.1 hp'
    rw [hfound] at hpreview hpresent
    rw [previewed_program] at hpreview
    rw [presented_program] at hpresent
    exact ⟨hpreview, hpresent⟩
  · intro source f htext hf
    rw [Source.parseText_result] at hf
    have hfound : Source.found s.files "utf-8" name
        = .malformed (tokenize source).length f := by
      rw [Source.found_of_text htext]
      unfold Source.foundIn
      rw [hf]
    rw [hfound] at hparsed hpreview
    exact ⟨hparsed, hpreview⟩
  · intro d n htext
    rw [Source.found_of_denied htext] at hparsed hpreview
    exact ⟨hparsed, hpreview⟩
  · intro e
    show (_ ↔ (Source.parseFile s.files "utf-8" name).2 = .error e)
      ∧ (_ ↔ (Source.parseFile s.files "utf-8" name).2 = .error e)
    rw [hpreview.ends_iff, hpresent.ends_iff, hparsed, exitCode_eq_error_iff,
      map_program?_eq_error_iff]
    exact ⟨.rfl, .rfl⟩

/-- A program, a program that lacks its semicolon, and no file at all. -/
theorem preview_agrees_shelf :
    let s := fresh ⟨[], .folder [("good", .file (Text.utf8 "move;")),
      ("bad", .file (Text.utf8 "move"))]⟩
    let f : Failure := ⟨.noSemicolon, [], none, none⟩
    ((Source.parseFile s.files "utf-8" "good").2 = .ok (some ⟨[.once .move]⟩)
      ∧ Prints (preview ["good"]) s
        ("Parsed Program:\n" ++ (Program.mk [.once .move]).text ++ "\n")
        (.ok 0))
    ∧ (Source.text s.files "utf-8" "bad" = .ok "move"
      ∧ (Source.parseText "move").2 = .error (.rejected f)
      ∧ Prints (preview ["bad"]) s ("Parsing error: " ++ f.text ++ "\n")
        (.ok 1))
    ∧ (Source.text s.files "utf-8" "gone"
        = .error (.file (.denied .missing "gone"))
      ∧ Prints (preview ["gone"]) s ("Error reading file " ++ "gone" ++ ": "
        ++ (FileFault.denied .missing "gone").message ++ "\n") (.ok 1)) := by
  intro s f
  have hnul : FileTree.hasNul "utf-8" = false := by decide
  have hname : Text.Encoding.ofName? "utf-8" = some .utf8 := by
    decide +kernel
  have hgood : Source.text s.files "utf-8" "good" = .ok "move;" := by
    have hcontent : s.files.content "good" = .ok (Text.utf8 "move;") := rfl
    have hdecode : Text.decode .utf8 (Text.utf8 "move;") = .ok "move;".toList :=
      rfl
    rw [Source.text_of_content hnul hname hcontent, hdecode]
    exact congrArg Except.ok (by decide +kernel)
  have hbad : Source.text s.files "utf-8" "bad" = .ok "move" := by
    have hcontent : s.files.content "bad" = .ok (Text.utf8 "move") := rfl
    have hdecode : Text.decode .utf8 (Text.utf8 "move") = .ok "move".toList :=
      rfl
    rw [Source.text_of_content hnul hname hcontent, hdecode]
    exact congrArg Except.ok (by decide +kernel)
  have hgone : Source.text s.files "utf-8" "gone"
      = .error (.file (.denied .missing "gone")) := by
    have hcontent : s.files.content "gone"
        = .error (.denied .missing "gone") := rfl
    exact Source.text_of_fault hnul hcontent
  have hparsed : (Source.parseFile s.files "utf-8" "good").2
      = .ok (some ⟨[.once .move]⟩) := by
    rw [Source.parseFile_eq, Source.found_of_text hgood]
    rfl
  have hrejected : (Source.parseText "move").2 = .error (.rejected f) := rfl
  obtain ⟨-, hprogram, -⟩ := preview_agrees s "good" []
  obtain ⟨-, -, hmalformed, -⟩ := preview_agrees s "bad" []
  obtain ⟨-, -, -, hdenied, -⟩ := preview_agrees s "gone" []
  exact ⟨⟨hparsed, (hprogram _ hparsed).1⟩,
    ⟨hbad, hrejected, (hmalformed _ _ hbad hrejected).2⟩,
    ⟨hgone, (hdenied _ _ hgone).2⟩⟩

end RobotLang.Session
