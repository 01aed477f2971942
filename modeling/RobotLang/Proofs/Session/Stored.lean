/-
Programs stored in files.

The canonical text of a program is plain, so it can be stored in any
encoding, and read in any other. What is read is the text itself, and the
program of that text is the one that was written. So a program comes back
from a file whatever the two encodings are, and is shown as it was written.
-/
import RobotLang.Proofs.RoundTrip
import RobotLang.Proofs.Session.Preview
import RobotLang.Proofs.Tree.Plain

namespace RobotLang

open Text

-- =============================================================== finding

namespace Source

variable {files : FileTree} {name : String}

/-- A plain text is read from its bytes in any encoding. -/
theorem text_of_plain (e : Encoding) {source : String}
    (hplain : IsPlain source)
    (h : files.content name = .ok (source.toList.map Char.toUInt8)) :
    text files e.name name = .ok source := by
  have hends : unifyLineEnds source.toList = source.toList :=
    unifyLineEnds_of_ne fun c hc => (hplain c hc).2
  rw [text_of_bytes e h, decode_of_plain e hplain]
  show Except.ok (String.ofList (unifyLineEnds source.toList)) = _
  rw [hends, String.ofList_toList]

/-- What is found in the text of a program is the program. -/
theorem foundIn_text {p : Program} (hp : p.statements ≠ [])
    (hshort : AllShort (Tree.program p).numbers) :
    foundIn p.text = .program (tokenize p.text).length p := by
  unfold foundIn
  rw [Program.ofText_text hp hshort]

end Source

-- ================================================================ stored

/-- A program comes back from a file in which it is stored. Its text has
ASCII characters only and no carriage return, so it has bytes in every
encoding. In any file with these bytes parsing finds the program in any
encoding, and logs how many tokens and statements it has; and the program
is shown with the text that was stored. -/
theorem Session.stored_program_found (p : Program) (hp : p.statements ≠ [])
    (hshort : AllShort (Tree.program p).numbers) :
    (∀ c ∈ p.text.toList, c.toNat < 128 ∧ c ≠ '\r')
    ∧ ∀ written read : Encoding, ∃ bytes, encode written p.text = some bytes
      ∧ ∀ (s : Session) (name : String), s.files.content name = .ok bytes →
        Source.parseFile s.files read.name name
          = ([⟨"logic", .debug, "Tokenized "
                ++ toString (tokenize p.text).length ++ " tokens"⟩,
              ⟨"logic", .debug, "Parsed " ++ toString p.statements.length
                ++ " top-level statements"⟩,
              ⟨"logic", .info, "Parsed " ++ name⟩], .ok (some p))
        ∧ Prints (present read.name name) s
          ("Parsing completed\n" ++ separator ++ "\nProgram:\n" ++ p.text
            ++ "\n" ++ separator ++ "\n") (.ok ()) := by
  have hplain := p.isPlain_text
  refine ⟨hplain, fun written read =>
    ⟨_, encode_of_plain written hplain, fun s name hcontent => ?_⟩⟩
  have hfound : Source.found s.files read.name name
      = .program (tokenize p.text).length p := by
    rw [Source.found_of_text (Source.text_of_plain read hplain hcontent),
      Source.foundIn_text hp hshort]
  have hparsed := Source.parseFile_eq s.files read.name name
  have hpresented := Prints.present read.name name s
  rw [hfound] at hparsed hpresented
  rw [presented_program] at hpresented
  exact ⟨hparsed, hpresented⟩

/-- A program of two lines, stored in Latin-1 and read as ASCII. -/
theorem Session.stored_program_found_lines :
    let p : Program := ⟨[.times .move (.number (-3)),
      .whileDo (.negate (.compare .lt (.sensor .fuelLeft) (.number 7)))
        [.once .turnLeft]]⟩
    let text :=
      "move(-3);\nwhile(not(lt(fuelLeft, 7))) \x7b turnL; \x7d"
    let s := fresh ⟨[], .folder [("plan", .file (Text.utf8 text))]⟩
    (p.statements ≠ [] ∧ AllShort (Tree.program p).numbers)
    ∧ p.text = text
    ∧ (encode .latin1 p.text = some (Text.utf8 text)
      ∧ s.files.content "plan" = .ok (Text.utf8 text))
    ∧ Source.parseFile s.files "ascii" "plan"
      = ([⟨"logic", .debug, "Tokenized " ++ toString 21 ++ " tokens"⟩,
          ⟨"logic", .debug, "Parsed " ++ toString 2
            ++ " top-level statements"⟩,
          ⟨"logic", .info, "Parsed " ++ "plan"⟩], .ok (some p))
    ∧ Prints (present "ascii" "plan") s
      ("Parsing completed\n" ++ separator ++ "\nProgram:\n" ++ text
        ++ "\n" ++ separator ++ "\n") (.ok ()) := by
  intro p text s
  have hp : p.statements ≠ [] := List.cons_ne_nil _ _
  have hshort : AllShort (Tree.program p).numbers := by decide
  have htext : p.text = text := by decide +kernel
  have hcount : (tokenize p.text).length = 21 := by decide +kernel
  have hbytes : encode .latin1 p.text = some (Text.utf8 text) := by
    decide +kernel
  have hfile (bytes : Bytes) : FileTree.content
      ⟨[], .folder [("plan", .file bytes)]⟩ "plan" = .ok bytes := rfl
  have hcontent : s.files.content "plan" = .ok (Text.utf8 text) :=
    hfile (Text.utf8 text)
  obtain ⟨-, hstored⟩ := stored_program_found p hp hshort
  obtain ⟨bytes, hencode, hread⟩ := hstored .latin1 .ascii
  obtain rfl := Option.some.inj (hencode.symm.trans hbytes)
  obtain ⟨hparsed, hshown⟩ := hread s "plan" hcontent
  rw [hcount] at hparsed
  rw [htext] at hshown
  exact ⟨⟨hp, hshort⟩, htext, ⟨hbytes, hcontent⟩, hparsed, hshown⟩

end RobotLang
