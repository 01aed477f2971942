/-
How the ends of lines are written.

A text that ends its lines with line feeds can have them written in two
other ways, with a carriage return in front of each line feed or instead of
it. None of the three makes a difference.

There are two reasons for it. In a file all of them are read as line feeds:
the carriage returns of the written text stand for line ends and nothing
else, so reading undoes writing (`unifyLineEnds_write`). And if a text with
both characters gets to the split as it is, the carriage return is white
space in the column behind the line, which the line feed then leaves
(`scan_write_both`). A carriage return alone would not do there, since it
does not begin a line.
-/
import RobotLang.Proofs.Source
import RobotLang.Proofs.Text.Plain
import RobotLang.Proofs.Token

namespace RobotLang

open Text

-- =============================================================== writing

/-- The ways to write the end of a line. -/
inductive Text.LineEnd
  | lineFeed | both | carriageReturn
  deriving DecidableEq, Repr

namespace Text.LineEnd

def chars : LineEnd → List Char
  | lineFeed => ['\n']
  | both => ['\r', '\n']
  | carriageReturn => ['\r']

/-- The characters with their line feeds written in that way. -/
def write (ends : LineEnd) (cs : List Char) : List Char :=
  cs.flatMap fun c => if c = '\n' then ends.chars else [c]

/-- The text with its line feeds written in that way. -/
def rewrite (ends : LineEnd) (text : String) : String :=
  String.ofList (ends.write text.toList)

variable {ends : LineEnd} {c : Char} {cs : List Char}

@[simp] theorem write_newline :
    ends.write ('\n' :: cs) = ends.chars ++ ends.write cs := rfl

theorem write_of_ne (hc : c ≠ '\n') :
    ends.write (c :: cs) = c :: ends.write cs := by
  rw [write, List.flatMap_cons, if_neg hc]
  rfl

theorem mem_write (h : c ∈ ends.write cs) : c ∈ cs ∨ c ∈ ends.chars := by
  obtain ⟨d, hd, hc⟩ := List.mem_flatMap.1 h
  by_cases hnewline : d = '\n'
  · rw [if_pos hnewline] at hc
    exact .inr hc
  · rw [if_neg hnewline, List.mem_singleton] at hc
    exact .inl (hc ▸ hd)

/-- Every character that is not a line feed is still there. -/
theorem mem_write_of_ne (hc : c ≠ '\n') (h : c ∈ cs) :
    c ∈ ends.write cs :=
  List.mem_flatMap.2 ⟨c, h, by rw [if_neg hc]; exact List.mem_singleton_self c⟩

-- =============================================================== reading

/-- Where line ends are carriage returns, no line feed is left. -/
theorem head?_write_carriageReturn (cs : List Char) :
    (carriageReturn.write cs).head? ≠ some '\n' := by
  intro h
  rcases mem_write (List.mem_of_head? h) with hmem | hmem
  · cases cs with
    | nil => cases h
    | cons d cs =>
        by_cases hd : d = '\n'
        · rw [hd, write_newline] at h
          cases h
        · rw [write_of_ne hd] at h
          exact hd (Option.some.inj h)
  · exact absurd hmem (by decide)

/-- The line ends are unified to the line feeds that they stand for. -/
theorem unifyLineEnds_write (ends : LineEnd) (h : '\r' ∉ cs) :
    unifyLineEnds (ends.write cs) = cs := by
  induction cs with
  | nil => rfl
  | cons c cs ih =>
      rw [List.mem_cons, not_or] at h
      obtain ⟨hc, hcs⟩ := h
      have hrest := ih hcs
      by_cases hnewline : c = '\n'
      · subst hnewline
        rw [write_newline]
        cases ends with
        | lineFeed | both =>
            exact congrArg ('\n' :: ·) hrest
        | carriageReturn =>
            have hhead := head?_write_carriageReturn cs
            show unifyLineEnds ('\r' :: carriageReturn.write cs) = _
            rw [unifyLineEnds.eq_2 _ _ fun ds _ hds =>
              hhead (by rw [hds]; rfl), if_pos rfl, hrest]
      · rw [write_of_ne hnewline, unifyLineEnds.eq_2 _ _ fun _ hr =>
          absurd hr.symm hc, if_neg (Ne.symm hc), hrest]

/-- An encoding has bytes for a text with line ends of one kind if it has
for line ends of another. -/
theorem isSome_encode_rewrite (e : Encoding) (ends : LineEnd) (text : String) :
    (encode e (ends.rewrite text)).isSome = (encode e text).isSome := by
  -- the characters of a line end are ASCII
  have hall (limit : Nat) (hlimit : 128 ≤ limit) :
      ((ends.write text.toList).all fun c => c.toNat < limit)
        = text.toList.all fun c => c.toNat < limit := by
    rw [Bool.eq_iff_iff, List.all_eq_true, List.all_eq_true]
    have hends : ∀ c ∈ ends.chars, c.toNat < 128 := by
      cases ends <;> simp [chars]
    constructor
    · intro h c hc
      by_cases hnewline : c = '\n'
      · subst hnewline
        exact decide_eq_true (Nat.lt_of_lt_of_le (by decide) hlimit)
      · exact h c (mem_write_of_ne hnewline hc)
    · intro h c hc
      rcases mem_write hc with hmem | hmem
      · exact h c hmem
      · exact decide_eq_true (Nat.lt_of_lt_of_le (hends c hmem) hlimit)
  unfold encode rewrite
  rw [String.toList_ofList]
  cases e with
  | utf8 =>
      dsimp only
      rw [Option.isSome_some, Option.isSome_some]
  | latin1 =>
      dsimp only
      rw [hall 256 (by decide)]
      split <;> rfl
  | ascii =>
      dsimp only
      rw [hall 128 (by decide)]
      split <;> rfl

end Text.LineEnd

-- ============================================================= splitting

namespace Lexeme

/-- A word goes on with the same letters, whatever the line ends are. -/
theorem goesOn_write (ends : LineEnd) (cs : List Char) :
    goesOn (ends.write cs) = goesOn cs := by
  cases cs with
  | nil => rfl
  | cons c cs =>
      by_cases hc : c = '\n'
      · subst hc
        cases ends <;> rfl
      · rw [LineEnd.write_of_ne hc]
        rfl

/-- A carriage return in front of a line feed moves no lexeme. -/
theorem scan_write_both (p : Place) (cs : List Char) :
    scan p (LineEnd.both.write cs) = scan p cs := by
  induction cs generalizing p with
  | nil => rfl
  | cons c cs ih =>
      by_cases hc : c = '\n'
      · subst hc
        have hnext : (p.next '\r').next '\n' = p.next '\n' := rfl
        show scan p ('\r' :: '\n' :: LineEnd.both.write cs) = _
        rw [scan_blank rfl, scan_blank rfl, scan_blank rfl, hnext, ih]
      · rw [LineEnd.write_of_ne hc, scan, scan, ih, goesOn_write]

end Lexeme

-- ================================================================= files

namespace Source

variable {files : FileTree} {name : String}

/-- What is read is the text with line feeds. -/
theorem text_of_rewrite {e : Encoding} {ends : LineEnd} {source : String}
    {bytes : Bytes} (hsource : '\r' ∉ source.toList)
    (hbytes : encode e (ends.rewrite source) = some bytes)
    (h : files.content name = .ok bytes) :
    text files e.name name = .ok source := by
  rw [text_of_bytes e h, decode_encode hbytes]
  unfold LineEnd.rewrite
  rw [String.toList_ofList]
  show Except.ok (String.ofList (unifyLineEnds (ends.write source.toList)))
    = _
  rw [LineEnd.unifyLineEnds_write ends hsource, String.ofList_toList]

end Source

/-- Line ends never matter. A text without carriage returns has the same
tokens at the same places when a carriage return is put in front of each
line feed. And if it can be stored in an encoding, so it can with line ends
of any kind, and parsing the files logs the same records under the same name
and gives the same result, be that a program or none or trouble. -/
theorem Source.line_ends_never_matter (t : String) (h : '\r' ∉ t.toList) :
    tokenize (LineEnd.both.rewrite t) = tokenize t
    ∧ ∀ e : Encoding,
      (∀ ends : LineEnd,
        (encode e (ends.rewrite t)).isSome = (encode e t).isSome)
      ∧ ∀ (ends ends' : LineEnd) bytes bytes' (files files' : FileTree) name,
        encode e (ends.rewrite t) = some bytes →
        encode e (ends'.rewrite t) = some bytes' →
        files.content name = .ok bytes → files'.content name = .ok bytes' →
        parseFile files e.name name = parseFile files' e.name name := by
  constructor
  · unfold tokenize LineEnd.rewrite
    rw [String.toList_ofList, Lexeme.scan_write_both]
  intro e
  refine ⟨fun ends => LineEnd.isSome_encode_rewrite e ends t, ?_⟩
  intro ends ends' bytes bytes' files files' name hbytes hbytes' hfile hfile'
  rw [parseFile_eq, parseFile_eq,
    found_of_text (text_of_rewrite h hbytes hfile),
    found_of_text (text_of_rewrite h hbytes' hfile')]

/-- A text with an empty line in it, and one at its end, as two files. -/
theorem Source.line_ends_never_matter_turn :
    let t := "move;\n\nturn;\n"
    let shelf (source : String) : FileTree :=
      ⟨[], .folder [("plan", .file (utf8 source))]⟩
    '\r' ∉ t.toList
    ∧ tokenize "move;\r\n\r\nturn;\r\n" = tokenize t
    ∧ parseFile (shelf "move;\r\n\r\nturn;\r\n") "utf-8" "plan"
      = parseFile (shelf "move;\r\rturn;\r") "utf-8" "plan" := by
  intro t shelf
  have hboth : LineEnd.both.rewrite t = "move;\r\n\r\nturn;\r\n" := by
    decide +kernel
  have hreturn : LineEnd.carriageReturn.rewrite t = "move;\r\rturn;\r" := by
    decide +kernel
  have hcontent (source : String) :
      (shelf source).content "plan" = .ok (utf8 source) := rfl
  have ht : '\r' ∉ t.toList := by decide
  obtain ⟨htokens, hfiles⟩ := line_ends_never_matter t ht
  rw [hboth] at htokens
  have hsame := (hfiles .utf8).2 .both .carriageReturn
  rw [hboth, hreturn] at hsame
  exact ⟨ht, htokens,
    hsame _ _ _ _ "plan" rfl rfl (hcontent _) (hcontent _)⟩

end RobotLang
