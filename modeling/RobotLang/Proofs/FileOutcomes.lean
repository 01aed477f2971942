/-
What becomes of a file that is parsed.

Either the file cannot be opened, or its bytes have a flaw in the encoding,
or it holds a text. A text is a program, or is rejected, or has a numeral
with too many digits where an expression may come.

A file that cannot be opened and a text that is rejected give no program,
and leave one record of an error, which names the file and says why. The
other two troubles are not looked for. They end the parsing, and nothing is
logged of them. So parsing a file comes to an end of its own for decodable
bytes and numerals that are short enough, and only for those.
-/
import RobotLang.Proofs.Outcomes
import RobotLang.Proofs.RoundTrip
import RobotLang.Proofs.Source
import RobotLang.Proofs.Tree.Plain

namespace RobotLang

open Text

-- ============================================================== contents

/-- A name that files can have is either denied or leads to a content. -/
theorem FileTree.content_cases (files : FileTree) {name : String}
    (h : hasNul name = false) :
    (∃ d, files.content name = .error (.denied d name))
      ∨ ∃ bytes, files.content name = .ok bytes := by
  unfold content
  rw [if_neg (by simp [h])]
  cases files.locate name with
  | error d => exact .inl ⟨d, rfl⟩
  | ok trail =>
      dsimp only
      cases files.reached trail with
      | file bytes => exact .inr ⟨bytes, rfl⟩
      | folder _ => exact .inl ⟨.isFolder, rfl⟩

namespace Source

variable {files : FileTree} {e : Encoding} {name source : String}

/-- The bytes of the named file have a flaw in the encoding. -/
def Flawed (files : FileTree) (e : Encoding) (name : String)
    (flaw : DecodeError) : Prop :=
  ∃ bytes, files.content name = .ok bytes ∧ decode e bytes = .error flaw

/-- The named file holds that text in the encoding, once its line ends are
unified. -/
def Contains (files : FileTree) (e : Encoding) (name source : String) : Prop :=
  ∃ bytes cs, files.content name = .ok bytes ∧ decode e bytes = .ok cs
    ∧ source = String.ofList (unifyLineEnds cs)

-- =============================================================== finding

/-- What there is to be found in a file, by the kind of the file. -/
inductive IsFound (files : FileTree) (e : Encoding) (name : String) :
    Finding → Prop
  | denied {d : Denial} (h : files.content name = .error (.denied d name)) :
      IsFound files e name (.denied d name)
  | flawed {flaw : DecodeError} (h : Flawed files e name flaw) :
      IsFound files e name (.textless (.undecodable flaw))
  | tooLong {source : String} {n : Nat} (h : Contains files e name source)
      (hsource : Program.ofText source = .error (.tooLong n)) :
      IsFound files e name (.tooLong (tokenize source).length n)
  | malformed {source : String} {f : Failure}
      (h : Contains files e name source)
      (hsource : Program.ofText source = .error (.rejected f)) :
      IsFound files e name (.malformed (tokenize source).length f)
  | program {source : String} {p : Program} (h : Contains files e name source)
      (hsource : Program.ofText source = .ok p) :
      IsFound files e name (.program (tokenize source).length p)

theorem Contains.found (h : Contains files e name source) :
    found files e.name name = foundIn source := by
  obtain ⟨bytes, cs, hbytes, hcs, rfl⟩ := h
  have htext := text_of_bytes e hbytes
  rw [hcs] at htext
  exact found_of_text htext

/-- Nothing else is found. -/
theorem IsFound.found_eq {finding : Finding}
    (h : IsFound files e name finding) :
    found files e.name name = finding := by
  cases h with
  | denied h => exact found_of_denied (text_of_fault e.hasNul_name h)
  | flawed h =>
      obtain ⟨bytes, hbytes, hflaw⟩ := h
      have htext := text_of_bytes e hbytes
      rw [hflaw] at htext
      unfold Source.found
      rw [htext]
      rfl
  | tooLong h hsource | malformed h hsource | program h hsource =>
      rw [h.found, foundIn, hsource]

theorem IsFound.parseFile_eq {finding : Finding}
    (h : IsFound files e name finding) :
    parseFile files e.name name
      = (finding.records name, finding.program?) := by
  rw [Source.parseFile_eq, h.found_eq]

/-- Under a name that files can have, a file of some kind is found. -/
theorem isFound_found (files : FileTree) (e : Encoding)
    (h : FileTree.hasNul name = false) :
    IsFound files e name (found files e.name name) := by
  -- it is enough to find something, since nothing else is found then
  suffices hsome : ∃ finding, IsFound files e name finding by
    obtain ⟨finding, hfinding⟩ := hsome
    rw [hfinding.found_eq]
    exact hfinding
  rcases files.content_cases h with hdenied | hbytes
  · obtain ⟨d, hd⟩ := hdenied
    exact ⟨_, .denied hd⟩
  obtain ⟨bytes, hbytes⟩ := hbytes
  cases hcs : decode e bytes with
  | error flaw => exact ⟨_, .flawed ⟨bytes, hbytes, hcs⟩⟩
  | ok cs =>
      obtain ⟨source, hcontains⟩ : ∃ source, Contains files e name source :=
        ⟨_, bytes, cs, hbytes, hcs, rfl⟩
      cases hsource : Program.ofText source with
      | ok p => exact ⟨_, .program hcontains hsource⟩
      | error refusal =>
          cases refusal with
          | rejected f => exact ⟨_, .malformed hcontains hsource⟩
          | tooLong n => exact ⟨_, .tooLong hcontains hsource⟩

-- =============================================================== results

/-- The exceptions. -/
theorem program?_eq_error_iff (h : FileTree.hasNul name = false)
    {trouble : Trouble} :
    (found files e.name name).program? = .error trouble
      ↔ (∃ flaw, Flawed files e name flaw ∧ trouble = .undecodable flaw)
        ∨ ∃ source n, Contains files e name source
          ∧ Program.ofText source = .error (.tooLong n)
          ∧ trouble = .tooLong n := by
  constructor
  · intro htrouble
    have hfound := isFound_found files e h
    generalize found files e.name name = finding at hfound htrouble
    cases hfound with
    | denied | malformed | program => cases htrouble
    | flawed hflaw =>
        cases htrouble
        exact .inl ⟨_, hflaw, rfl⟩
    | tooLong hcontains hsource =>
        cases htrouble
        exact .inr ⟨_, _, hcontains, hsource, rfl⟩
  · rintro (⟨flaw, hflaw, rfl⟩ | ⟨source, n, hcontains, hsource, rfl⟩)
    · rw [(IsFound.flawed hflaw).found_eq]
      rfl
    · rw [(IsFound.tooLong hcontains hsource).found_eq]
      rfl

/-- The programs. -/
theorem program?_eq_ok_some_iff (h : FileTree.hasNul name = false)
    {p : Program} :
    (found files e.name name).program? = .ok (some p)
      ↔ ∃ source, Contains files e name source
        ∧ Program.ofText source = .ok p := by
  constructor
  · intro hp
    have hfound := isFound_found files e h
    generalize found files e.name name = finding at hfound hp
    cases hfound with
    | denied | flawed | tooLong | malformed => cases hp
    | program hcontains hsource =>
        cases hp
        exact ⟨_, hcontains, hsource⟩
  · rintro ⟨source, hcontains, hsource⟩
    rw [(IsFound.program hcontains hsource).found_eq]
    rfl

/-- The files without a program. -/
theorem program?_eq_ok_none_iff (h : FileTree.hasNul name = false) :
    (found files e.name name).program? = .ok none
      ↔ (∃ d, files.content name = .error (.denied d name))
        ∨ ∃ source f, Contains files e name source
          ∧ Program.ofText source = .error (.rejected f) := by
  constructor
  · intro hnone
    have hfound := isFound_found files e h
    generalize found files e.name name = finding at hfound hnone
    cases hfound with
    | flawed | tooLong | program => cases hnone
    | denied hd => exact .inl ⟨_, hd⟩
    | malformed hcontains hsource => exact .inr ⟨_, _, hcontains, hsource⟩
  · rintro (⟨d, hd⟩ | ⟨source, f, hcontains, hsource⟩)
    · rw [(IsFound.denied hd).found_eq]
      rfl
    · rw [(IsFound.malformed hcontains hsource).found_eq]
      rfl

-- ================================================================ errors

namespace Finding

/-- The records of errors among those that are logged of a finding. -/
def errors (name : String) : Finding → List Record
  | malformed _ f => [Source.malformed name f]
  | denied d n => [unreadable name (.denied d n)]
  | program _ _ | tooLong _ _ | textless _ => []

theorem filter_records (name : String) (finding : Finding) :
    (finding.records name).filter (fun r => r.level = .error)
      = finding.errors name := by
  cases finding <;> rfl

/-- One error is logged if there is no program, and otherwise none. -/
theorem errors_eq_nil_iff {finding : Finding} :
    finding.errors name = [] ↔ finding.program? ≠ .ok none := by
  cases finding <;> simp [errors, program?]

end Finding

end Source

-- ========================================================= long numerals

/-- Among legible words no numeral is too long. -/
theorem Program.ofText_ne_tooLong {source : String} {n : Nat}
    (h : Legible (wordsOf source.toList)) :
    ofText source ≠ .error (.tooLong n) := by
  intro hlong
  obtain ⟨rest, hread⟩ := ofTokens_eq_error_iff.1 hlong
  obtain ⟨t, ht, hnumeral, hdigits⟩ :=
    (Reading.Plain.upTo _ .program).tooLong_mem hread
  have hmem : t.value ∈ wordsOf source.toList := by
    rw [← map_value_tokenize]
    exact List.mem_map_of_mem ht
  have hfew := h t.value hmem hnumeral
  omega

/-- A move with a number for its amount. -/
def Program.moving (n : Int) : Program := ⟨[.times .move (.number n)]⟩

theorem Program.text_moving (n : Int) :
    (moving n).text = "move(" ++ Numeral.write n ++ ");" :=
  String.intercalate_singleton

theorem Program.map_value_tokenize_moving (n : Int) :
    (tokenize (moving n).text).map Token.value
      = ["move", "(", Numeral.write n, ")", ";"] :=
  (Tree.program (moving n)).map_value_tokenize_text

/-- A program whose amount is too long to be read is not read back from its
text. -/
theorem Program.ofText_text_moving {n : Int} (hn : ¬ Numeral.IsShort n) :
    ofText (moving n).text
      = .error (.tooLong (Numeral.digits (Numeral.write n)).length) := by
  have hwords := map_value_tokenize_moving n
  obtain ⟨name, ts, hts, hname, hwords⟩ := List.map_eq_cons_iff.1 hwords
  obtain ⟨paren, ts, rfl, hparen, hwords⟩ := List.map_eq_cons_iff.1 hwords
  obtain ⟨numeral, rest, rfl, hnumeral, -⟩ := List.map_eq_cons_iff.1 hwords
  have hlong : Numeral.digitLimit
      < (Numeral.digits (Numeral.write n)).length := by
    rw [Numeral.digits_write]
    exact Nat.lt_of_not_le hn
  refine ofTokens_eq_error_iff.2 ⟨rest, Rule.read_tooLong_iff.2 ?_⟩
  refine ⟨[name, paren], numeral, hts, ?_, ?_, hlong, ?_⟩
  · rw [hnumeral]
    exact Numeral.isNumeral_write n
  · rw [hnumeral]
  -- any expression may come behind the parenthesis
  · refine Rule.faces_expr_iff.2 fun e u hu => ?_
    obtain ⟨hderives, hlegible⟩ := hu
    have hprogram := Derives.more (.stmtAction (.times .move hderives)) .none
    have hlist : [name, paren].map Token.value ++ u ++ [")", ";"]
        = Repeatable.move.action.word
          :: (inParens u ++ [Mark.semicolon.word]) ++ [] := by
      simp only [List.map_cons, List.map_nil, hname, hparen, inParens,
        List.cons_append, List.nil_append, List.append_assoc, List.append_nil]
      rfl
    refine ⟨.program ⟨[.times .move e]⟩, [")", ";"], ?_, ?_⟩
    · rw [hlist]
      exact hprogram
    · rw [hlist]
      simp [hlegible]

theorem Numeral.write_value_ones (n : Nat) :
    write (value (ones (n + 1))) = ones (n + 1) := by
  rw [write_value (isNumeral_ones n)]
  refine tidy_of_ne fun h => ?_
  have hhead := congrArg (fun w => w.toList.head?) h
  rw [ones, String.toList_ofList] at hhead
  exact absurd hhead (by simp [List.replicate_succ])

-- ============================================================== outcomes

/-- What becomes of a file that is parsed. An exception is handed on if and
only if the bytes have a flaw in the encoding, or the text has a numeral
that is too long where an expression may come; so none is where the bytes
can be decoded and all numerals are legible. Otherwise the text is a
program, which is given, or there is none, because the file cannot be opened
or its text is rejected. If there is none, one record of an error is logged,
with the name of the file and the reason; in all other cases none is. -/
theorem Source.parseFile_outcomes (files : FileTree) (e : Encoding)
    (name : String) (h : FileTree.hasNul name = false) :
    let parsed := parseFile files e.name name
    let errors := parsed.1.filter fun r => r.level = .error
    (∀ trouble, parsed.2 = .error trouble
      ↔ (∃ flaw, Flawed files e name flaw ∧ trouble = .undecodable flaw)
        ∨ ∃ source n, Contains files e name source
          ∧ Program.ofText source = .error (.tooLong n)
          ∧ trouble = .tooLong n)
    ∧ (∀ source, Contains files e name source →
      Legible (wordsOf source.toList) → ∃ result, parsed.2 = .ok result)
    ∧ (∀ p, parsed.2 = .ok (some p)
      ↔ ∃ source, Contains files e name source ∧ Program.ofText source = .ok p)
    ∧ (parsed.2 = .ok none
      ↔ (∃ d, files.content name = .error (.denied d name))
        ∨ ∃ source f, Contains files e name source
          ∧ Program.ofText source = .error (.rejected f))
    ∧ (∀ d, files.content name = .error (.denied d name) →
      errors = [⟨"logic", .error, "Robot program source file " ++ name
        ++ " could not be read: " ++ (FileFault.denied d name).message⟩])
    ∧ (∀ source f, Contains files e name source →
      Program.ofText source = .error (.rejected f) →
      errors = [⟨"logic", .error, "Parser error in " ++ name ++ ":\n"
        ++ f.text⟩])
    ∧ (errors = [] ↔ parsed.2 ≠ .ok none) := by
  intro parsed errors
  have hresult : parsed.2 = (found files e.name name).program? :=
    congrArg Prod.snd (parseFile_eq files e.name name)
  have herrors : errors = (found files e.name name).errors name := by
    show (parseFile files e.name name).1.filter _ = _
    rw [parseFile_eq]
    exact Finding.filter_records name _
  rw [hresult, herrors]
  refine ⟨fun trouble => program?_eq_error_iff h, ?_,
    fun p => program?_eq_ok_some_iff h, program?_eq_ok_none_iff h, ?_, ?_,
    Finding.errors_eq_nil_iff⟩
  · intro source hcontains hlegible
    rw [hcontains.found, foundIn]
    cases hsource : Program.ofText source with
    | ok p => exact ⟨some p, rfl⟩
    | error refusal =>
        cases refusal with
        | rejected f => exact ⟨none, rfl⟩
        | tooLong n =>
            exact absurd hsource (Program.ofText_ne_tooLong hlegible)
  · intro d hd
    rw [(IsFound.denied (e := e) hd).found_eq]
    rfl
  · intro source f hcontains hsource
    rw [(IsFound.malformed hcontains hsource).found_eq]
    rfl

/-- A file that lacks a semicolon, and one that is not there. -/
theorem Source.parseFile_outcomes_shelf :
    let shelf : FileTree := ⟨[], .folder [("bad", .file (utf8 "move"))]⟩
    let f : Failure := ⟨.noSemicolon, [], none, none⟩
    (FileTree.hasNul "bad" = false
      ∧ (parseFile shelf "utf-8" "bad").2 = .ok none
      ∧ (parseFile shelf "utf-8" "bad").1.filter (fun r => r.level = .error)
        = [⟨"logic", .error, "Parser error in " ++ "bad" ++ ":\n" ++ f.text⟩])
    ∧ FileTree.hasNul "gone" = false
      ∧ (parseFile shelf "utf-8" "gone").2 = .ok none
      ∧ (parseFile shelf "utf-8" "gone").1.filter (fun r => r.level = .error)
        = [⟨"logic", .error, "Robot program source file " ++ "gone"
          ++ " could not be read: "
          ++ (FileFault.denied .missing "gone").message⟩] := by
  intro shelf f
  have hbad : FileTree.hasNul "bad" = false := by decide
  have hgone : FileTree.hasNul "gone" = false := by decide
  have hcontains : Contains shelf .utf8 "bad" "move" :=
    ⟨utf8 "move", "move".toList, rfl, rfl, by decide +kernel⟩
  have hrejected : Program.ofText "move" = .error (.rejected f) := rfl
  have hmissing : shelf.content "gone" = .error (.denied .missing "gone") :=
    rfl
  obtain ⟨-, -, -, hnone, -, hrecord, -⟩ :=
    parseFile_outcomes shelf .utf8 "bad" hbad
  obtain ⟨-, -, -, hnone', hrecord', -⟩ :=
    parseFile_outcomes shelf .utf8 "gone" hgone
  exact ⟨⟨hbad, hnone.2 (.inr ⟨_, _, hcontains, hrejected⟩),
      hrecord _ _ hcontains hrejected⟩,
    hgone, hnone'.2 (.inl ⟨_, hmissing⟩), hrecord' _ hmissing⟩

/-- A byte that no character begins with, and an amount of 4301 digits, end
the parsing with an exception and without a record of an error. -/
theorem Source.parseFile_escapes :
    let shelf : FileTree := ⟨[], .folder [("torn", .file [0xFF]),
      ("long", .file (utf8 ("move(" ++ Numeral.ones 4301 ++ ");")))]⟩
    (FileTree.hasNul "torn" = false
      ∧ parseFile shelf "utf-8" "torn"
        = ([], .error (.undecodable ⟨.utf8, .badStart, 0xFF, 0, 0⟩)))
    ∧ FileTree.hasNul "long" = false
      ∧ parseFile shelf "utf-8" "long"
        = ([tokenized 5], .error (.tooLong 4301)) := by
  intro shelf
  constructor
  · have htorn : Flawed shelf .utf8 "torn"
        ⟨.utf8, .badStart, 0xFF, 0, 0⟩ := ⟨[0xFF], rfl, rfl⟩
    exact ⟨by decide, (IsFound.flawed htorn).parseFile_eq⟩
  · let n := Numeral.value (Numeral.ones 4301)
    have hwrite : Numeral.write n = Numeral.ones 4301 :=
      Numeral.write_value_ones 4300
    have hlength : (Numeral.digits (Numeral.write n)).length = 4301 := by
      rw [hwrite, Numeral.digits_ones, List.length_replicate]
    have hlong : ¬ Numeral.IsShort n := by
      rw [Numeral.IsShort, ← Numeral.digits_write, hlength]
      decide
    have hsource := Program.ofText_text_moving hlong
    have hcount := congrArg List.length (Program.map_value_tokenize_moving n)
    rw [List.length_map] at hcount
    have hcontains : Contains shelf .utf8 "long" (Program.moving n).text := by
      refine ⟨_, (Program.moving n).text.toList, ?_, decodeUtf8_utf8 0 _, ?_⟩
      · rw [Program.text_moving, hwrite]
        rfl
      · rw [unifyLineEnds_of_ne fun c hc =>
          ((Program.moving n).isPlain_text c hc).2, String.ofList_toList]
    have hparsed := (IsFound.tooLong hcontains hsource).parseFile_eq
    rw [hlength, hcount] at hparsed
    exact ⟨by decide, hparsed⟩

end RobotLang
