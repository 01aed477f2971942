/-
A syntax error can be read off its text.

The text of a failure has two lines. The first one holds the place, a colon
and the wording of the reason, the second one the context in a fixed frame,
each word behind a space. Words of a program may look like any part of
this, but they have no white space in them, and that is enough to find the
parts again: the wording is all on the first line, where no colon stands in
front of it but the one behind the place; and between the spaces of the
second line stand the words of the context and nothing else.

So failures with the same text have their parts in common (`text_inj`), as
long as their wordings and words are such (`Clear`). Those of a program's
text are, since every word in them is a token of it. Reasons that a program
is rejected for have different wordings, so with the wording the reason is
known as well.
-/
import Mathlib.Data.List.Basic
import RobotLang.Proofs.Reasons
import RobotLang.Proofs.Token.Place

namespace RobotLang

open Reading Text

-- ============================================================ numerals

/-- A numeral is made of digits and a minus sign. -/
theorem Numeral.isDigit_or_minus {n : Int} {c : Char}
    (h : c ∈ (write n).toList) : c.isDigit = true ∨ c = '-' := by
  have hdigit : c ∈ Nat.toDigits 10 n.natAbs → c.isDigit = true :=
    Nat.isDigit_of_mem_toDigits (by decide) (by decide)
  rw [toList_write] at h
  split at h
  · exact .inl (hdigit h)
  · rcases List.mem_cons.1 h with rfl | h
    · exact .inr rfl
    · exact .inl (hdigit h)

theorem Numeral.notMem_write (n : Int) {c : Char} (hdigit : c.isDigit = false)
    (hminus : c ≠ '-') : c ∉ (write n).toList := by
  intro h
  rcases isDigit_or_minus h with hc | hc
  · rw [hdigit] at hc
    cases hc
  · exact hminus hc

theorem Numeral.write_injective : Function.Injective write :=
  Function.LeftInverse.injective value_write

-- =============================================================== parts

/-- Where a text is cut at the first character of a kind, both parts are
found again. -/
theorem cut_inj {c : Char} {front front' back back' : List Char}
    (hfront : c ∉ front) (hfront' : c ∉ front')
    (h : front ++ c :: back = front' ++ c :: back') :
    front = front' ∧ back = back' := by
  have hcut (cs ds : List Char) (hcs : c ∉ cs) :
      (cs ++ c :: ds).takeWhile (· != c) = cs := by
    rw [List.takeWhile_append_of_pos, List.takeWhile_cons]
    · simp
    · intro d hd
      have hne : d ≠ c := fun he => hcs (he ▸ hd)
      simp [hne]
  have hsame : front = front' := by
    rw [← hcut front back hfront, h, hcut front' back' hfront']
  rw [hsame] at h
  exact ⟨hsame, (List.cons.inj (List.append_cancel_left h)).2⟩

namespace Failure

variable {f g : Failure}

/-- What is on the second line of a failure's text, between the dots. -/
def upcoming (f : Failure) : List Char :=
  f.context.flatMap fun w => ' ' :: w.toList

/-- The two lines of a failure's text. -/
def firstLine (f : Failure) : List Char :=
  f.locus.toList ++ ':' :: (' ' :: f.reason.message.toList)

def secondLine (f : Failure) : List Char :=
  "   @ ...".toList ++ (f.upcoming ++ "...".toList)

theorem toList_text (f : Failure) :
    f.text.toList = f.firstLine ++ '\n' :: f.secondLine := by
  have hupcoming : (String.join (f.context.map fun w => " " ++ w)).toList
      = f.upcoming := by
    rw [String.toList_join, List.flatMap_map]
    exact List.flatMap_congr fun w _ => String.toList_append
  unfold text firstLine secondLine
  simp only [String.toList_append, hupcoming, List.append_assoc]
  rfl

/-- What it takes to find the parts of a failure in its text again. The
column is known if the line is, the wording is on one line, and the words of
the context have no white space. -/
structure Clear (f : Failure) : Prop where
  placed : f.line = none ↔ f.column = none
  oneLine : '\n' ∉ f.reason.message.toList
  solid : ∀ w ∈ f.context, w ≠ "" ∧ ∀ c ∈ w.toList, isBlank c = false

-- =============================================================== places

/-- A place is told by a line and a column, or is the end of input. -/
theorem Clear.locus_cases (h : f.Clear) :
    (f.line = none ∧ f.column = none
      ∧ f.locus = "Syntax error at end of input")
    ∨ ∃ l c, f.line = some l ∧ f.column = some c
      ∧ f.locus.toList = ("Syntax error at line ".toList
          ++ (Numeral.write l).toList)
        ++ ',' :: (" col ".toList ++ (Numeral.write c).toList) := by
  unfold locus
  cases hline : f.line with
  | none => exact .inl ⟨rfl, h.placed.1 hline, rfl⟩
  | some l =>
      cases hcolumn : f.column with
      | none =>
          rw [h.placed.2 hcolumn] at hline
          cases hline
      | some c =>
          refine .inr ⟨l, c, rfl, rfl, ?_⟩
          simp only [String.toList_append, List.append_assoc]
          rfl

/-- No colon stands in a place. -/
theorem Clear.colon_notMem (h : f.Clear) : ':' ∉ f.locus.toList := by
  rcases h.locus_cases with ⟨-, -, hlocus⟩ | ⟨l, c, -, -, hlocus⟩
  · rw [hlocus]
    decide
  · have hl := Numeral.notMem_write l (c := ':') (by decide) (by decide)
    have hc := Numeral.notMem_write c (c := ':') (by decide) (by decide)
    rw [hlocus]
    simp [hl, hc]

/-- The place can be read off its wording, in which a comma stands between
the line and the column and nowhere else. -/
theorem Clear.place_inj (hf : f.Clear) (hg : g.Clear)
    (h : f.locus = g.locus) : f.line = g.line ∧ f.column = g.column := by
  have hend : ',' ∉ "Syntax error at end of input".toList := by decide
  have hfront (l : Int) :
      ',' ∉ "Syntax error at line ".toList ++ (Numeral.write l).toList := by
    have hl := Numeral.notMem_write l (c := ',') (by decide) (by decide)
    simp [hl]
  rcases hf.locus_cases with
    ⟨hline, hcolumn, hlocus⟩ | ⟨l, c, hline, hcolumn, hlocus⟩
  · rcases hg.locus_cases with
      ⟨hline', hcolumn', -⟩ | ⟨l', c', -, -, hlocus'⟩
    · rw [hline, hline', hcolumn, hcolumn']
      exact ⟨rfl, rfl⟩
    · rw [← h, hlocus] at hlocus'
      exact absurd (by rw [hlocus']; simp) hend
  · rcases hg.locus_cases with
      ⟨-, -, hlocus'⟩ | ⟨l', c', hline', hcolumn', hlocus'⟩
    · rw [h, hlocus'] at hlocus
      exact absurd (by rw [hlocus]; simp) hend
    · rw [h, hlocus'] at hlocus
      obtain ⟨hl, hc⟩ := cut_inj (hfront l') (hfront l) hlocus
      have hlines : l' = l := Numeral.write_injective
        (String.toList_inj.1 (List.append_cancel_left hl))
      have hcolumns : c' = c := Numeral.write_injective
        (String.toList_inj.1 (List.append_cancel_left hc))
      rw [hline, hline', hcolumn, hcolumn', hlines, hcolumns]
      exact ⟨rfl, rfl⟩

-- ============================================================= context

theorem Clear.notMem_of_blank (h : f.Clear) {c : Char}
    (hc : isBlank c = true) {w : String} (hw : w ∈ f.context) :
    c ∉ w.toList := by
  intro hmem
  have hsolid := (h.solid w hw).2 c hmem
  rw [hc] at hsolid
  cases hsolid

/-- Between the spaces of the second line stand the words. -/
theorem Clear.splitOn_upcoming (h : f.Clear) :
    f.upcoming.splitOn ' ' = [] :: f.context.map String.toList := by
  have hspaces : [' '].intercalate ([] :: f.context.map String.toList)
      = f.upcoming := by
    unfold upcoming
    induction f.context with
    | nil => rfl
    | cons w ws ih =>
        rw [List.map_cons, List.intercalate_cons_cons, List.flatMap_cons, ← ih]
        cases ws <;> simp
  rw [← hspaces]
  refine List.splitOn_intercalate ' ' (fun cs hcs => ?_) (List.cons_ne_nil _ _)
  rcases List.mem_cons.1 hcs with rfl | hcs
  · exact List.not_mem_nil
  · obtain ⟨w, hw, rfl⟩ := List.mem_map.1 hcs
    exact h.notMem_of_blank (by decide) hw

theorem Clear.newline_notMem_secondLine (h : f.Clear) :
    '\n' ∉ f.secondLine := by
  have hupcoming : '\n' ∉ f.upcoming := by
    intro hmem
    obtain ⟨w, hw, hmem⟩ := List.mem_flatMap.1 hmem
    rcases List.mem_cons.1 hmem with hspace | hmem
    · exact absurd hspace (by decide)
    · exact h.notMem_of_blank (by decide) hw hmem
  unfold secondLine
  simp [hupcoming]

-- ======================================================== the whole text

theorem Clear.newline_notMem_firstLine (h : f.Clear) :
    '\n' ∉ f.firstLine := by
  have hlocus : '\n' ∉ f.locus.toList := by
    rcases h.locus_cases with ⟨-, -, hlocus⟩ | ⟨l, c, -, -, hlocus⟩
    · rw [hlocus]
      decide
    · have hl := Numeral.notMem_write l (c := '\n') (by decide) (by decide)
      have hc := Numeral.notMem_write c (c := '\n') (by decide) (by decide)
      rw [hlocus]
      simp [hl, hc]
  unfold firstLine
  simp [hlocus, h.oneLine]

/-- The text has two lines. -/
theorem Clear.linesOf_text (h : f.Clear) :
    linesOf f.text.toList = [f.firstLine, f.secondLine] := by
  rw [toList_text, linesOf_append h.newline_notMem_firstLine, linesOf,
    List.splitOn_eq_singleton h.newline_notMem_secondLine]

/-- Failures with the same text have the same wording, place and context. -/
theorem Clear.text_inj (hf : f.Clear) (hg : g.Clear) (h : f.text = g.text) :
    f.reason.message = g.reason.message ∧ f.context = g.context
      ∧ f.line = g.line ∧ f.column = g.column := by
  have hlines := hf.linesOf_text
  rw [h, hg.linesOf_text] at hlines
  obtain ⟨hfirst, hsecond, -⟩ : g.firstLine = f.firstLine
      ∧ g.secondLine = f.secondLine ∧ True := by simpa using hlines
  -- the first colon is the one behind the place
  obtain ⟨hlocus, hmessage⟩ :=
    cut_inj hf.colon_notMem hg.colon_notMem hfirst.symm
  have hupcoming : f.upcoming = g.upcoming :=
    List.append_cancel_right (List.append_cancel_left hsecond.symm)
  have hcontext := hf.splitOn_upcoming
  rw [hupcoming, hg.splitOn_upcoming] at hcontext
  refine ⟨String.toList_inj.1 (List.cons.inj hmessage).2, ?_,
    hf.place_inj hg (String.toList_inj.1 hlocus)⟩
  exact (List.map_injective_iff.2 fun _ _ => String.toList_inj.1)
    (List.cons.inj hcontext).2.symm

end Failure

-- ============================================================= wordings

namespace Reason

variable {reason reason' : Reason} {next next' : Option String}
  {faces faces' : Rule → Prop} {grants grants' : String → Prop}

/-- The reasons that programs are rejected for and that show no word of
them. -/
def standing : List Reason :=
  [nothingLeft, noSemicolon, noOpenBrace, noCloseBrace, noOpenParen,
    noCloseParen, noCloseAmount, noComma, noCommaIn .add, noCommaIn .sub,
    noCommaIn .mul, noCommaIn .div, notCondition, notExpression]

/-- A truthful reason stands by itself or shows the next word. -/
theorem Truthful.cases (h : reason.Truthful next faces grants) :
    reason ∈ standing
      ∨ ∃ w, reason = unknownStatement w ∧ next = some w := by
  cases reason with
  | unknownStatement w => exact .inr ⟨w, rfl, h⟩
  | noCommaIn o => cases o <;> exact .inl (by decide)
  | notAction | notLoop | notIf | notWhile | notRelation | notConnective
  | notSensor | notOperation | endOfInput | stated m => exact h.elim
  | nothingLeft | noSemicolon | noOpenBrace | noCloseBrace | noOpenParen
  | noCloseParen | noCloseAmount | noComma | notCondition
  | notExpression => exact .inl (by decide)

theorem toList_unknownStatement (w : String) :
    (unknownStatement w).message.toList
      = "Unknown statement '".toList ++ (w.toList ++ ['\'']) := by
  show ("Unknown statement '" ++ w ++ "'").toList = _
  rw [String.toList_append, String.toList_append, List.append_assoc]
  rfl

/-- No standing reason is worded like one that shows a word. -/
theorem not_prefix_of_standing (h : reason ∈ standing) :
    ¬ "Unknown statement '".toList <+: reason.message.toList := by
  have hall : ∀ r ∈ standing,
      ¬ "Unknown statement '".toList <+: r.message.toList := by
    decide +kernel
  exact hall reason h

/-- Truthful reasons with the same wording are the same. -/
theorem Truthful.message_inj (h : reason.Truthful next faces grants)
    (h' : reason'.Truthful next' faces' grants')
    (hmessage : reason.message = reason'.message) : reason = reason' := by
  have hall : ∀ r ∈ standing, ∀ r' ∈ standing,
      r.message = r'.message → r = r' := by decide +kernel
  rcases h.cases with hr | ⟨w, rfl, -⟩
  · rcases h'.cases with hr' | ⟨w', rfl, -⟩
    · exact hall reason hr reason' hr' hmessage
    · have hnot := not_prefix_of_standing hr
      rw [hmessage, toList_unknownStatement] at hnot
      exact absurd (List.prefix_append _ _) hnot
  · rcases h'.cases with hr' | ⟨w', rfl, -⟩
    · have hnot := not_prefix_of_standing hr'
      rw [← hmessage, toList_unknownStatement] at hnot
      exact absurd (List.prefix_append _ _) hnot
    · have hletters := congrArg String.toList hmessage
      rw [toList_unknownStatement, toList_unknownStatement] at hletters
      have hwords : w = w' := String.toList_inj.1
        (List.append_cancel_right (List.append_cancel_left hletters))
      rw [hwords]

/-- The wording of a truthful reason is on one line, if the next word is. -/
theorem Truthful.newline_notMem (h : reason.Truthful next faces grants)
    (hnext : ∀ w, next = some w → '\n' ∉ w.toList) :
    '\n' ∉ reason.message.toList := by
  have hall : ∀ r ∈ standing, '\n' ∉ r.message.toList := by decide +kernel
  rcases h.cases with hr | ⟨w, rfl, hw⟩
  · exact hall reason hr
  · rw [toList_unknownStatement]
    simp [hnext w hw]

end Reason

-- ============================================================= programs

/-- A lexeme has letters. -/
theorem Lexeme.letters_ne_nil {p : Place} {cs : List Char} {l : Lexeme}
    (h : l ∈ scan p cs) : l.letters ≠ [] := by
  induction cs using text_induction generalizing p with
  | nil => cases h
  | blank c cs hc ih =>
      rw [scan_blank hc] at h
      exact ih h
  | mark c cs hb hm ih =>
      rw [scan_mark hb hm] at h
      rcases List.mem_cons.1 h with rfl | h
      · exact List.cons_ne_nil c []
      · exact ih h
  | word w rest hne hw hrest ih =>
      rw [scan_word hne hw hrest] at h
      rcases List.mem_cons.1 h with rfl | h
      · exact hne
      · exact ih h

/-- The words of a text are not empty, and have no white space in them. -/
theorem tokenize_solid {text : String} {t : Token} (h : t ∈ tokenize text) :
    t.value ≠ "" ∧ ∀ c ∈ t.value.toList, isBlank c = false := by
  obtain ⟨l, hl, rfl⟩ := List.mem_map.1 h
  have hvalue : l.token.value.toList = l.letters := String.toList_ofList
  constructor
  · intro hempty
    rw [hempty] at hvalue
    exact Lexeme.letters_ne_nil hl hvalue.symm
  · rw [hvalue]
    exact (Lexeme.standing hl).2

/-- Where a text is rejected, the failure has a truthful reason and is in
front of tokens of the text. -/
theorem Program.rejected_spec {text : String} {f : Failure}
    (h : ofText text = .error (.rejected f)) :
    ∃ taken rest, tokenize text = taken ++ rest
      ∧ f = .before f.reason rest
      ∧ f.reason.Truthful (nextWord rest) (Demands (taken.map Token.value))
        fun w => Viable (taken.map Token.value ++ [w]) := by
  obtain ⟨rest, hread⟩ := ofTokens_eq_error_iff.1 h
  have hplain : Plain (Rule.program.upTo (tokenize text).length) :=
    .upTo _ _
  obtain ⟨taken, htaken⟩ := hplain.suffix_of_error hread
  have hfailure := hplain.failure_eq hread
  rw [← htaken] at hread
  exact ⟨taken, rest, htaken.symm, hfailure,
    Rule.truthful_of_rejected hread⟩

theorem Failure.clear_of_rejected {text : String} {f : Failure}
    (h : Program.ofText text = .error (.rejected f)) : f.Clear := by
  obtain ⟨taken, rest, htext, hf, htrue⟩ := Program.rejected_spec h
  have hsolid : ∀ t ∈ rest,
      t.value ≠ "" ∧ ∀ c ∈ t.value.toList, isBlank c = false := by
    intro t ht
    have hmem : t ∈ tokenize text := by
      rw [htext]
      exact List.mem_append_right taken ht
    exact tokenize_solid hmem
  constructor
  · rw [hf]
    cases rest <;> simp [before]
  · refine htrue.newline_notMem fun w hw hmem => ?_
    obtain ⟨t, ht, rfl⟩ := Option.map_eq_some_iff.1 hw
    have hblank := (hsolid t (List.mem_of_head? ht)).2 _ hmem
    exact absurd hblank (by decide)
  · intro w hw
    rw [hf] at hw
    obtain ⟨t, ht, rfl⟩ := List.mem_map.1 hw
    exact hsolid t (List.mem_of_mem_take ht)

/-- The text of a syntax error loses nothing. Two texts that are rejected
with the same text are rejected with the same failure: for the same reason,
at the same place, and with the same words ahead. The text has two lines,
and the second one, without its frame and split at its spaces, is the words
ahead, behind the nothing that is in front of the first space. -/
theorem Failure.text_loses_nothing :
    (∀ source source' f f', Program.ofText source = .error (.rejected f) →
      Program.ofText source' = .error (.rejected f') →
      f.text = f'.text → f = f')
    ∧ ∀ source f, Program.ofText source = .error (.rejected f) →
      ∃ first upcoming, f.text.toList.splitOn '\n'
          = [first, "   @ ...".toList ++ (upcoming ++ "...".toList)]
        ∧ upcoming.splitOn ' ' = [] :: f.context.map String.toList
        ∧ ∀ w ∈ f.context, w ≠ "" := by
  constructor
  · intro source source' f f' hf hf' htext
    obtain ⟨hmessage, hcontext, hline, hcolumn⟩ :=
      (clear_of_rejected hf).text_inj (clear_of_rejected hf') htext
    obtain ⟨_, _, _, _, htrue⟩ := Program.rejected_spec hf
    obtain ⟨_, _, _, _, htrue'⟩ := Program.rejected_spec hf'
    have hreason := htrue.message_inj htrue' hmessage
    obtain ⟨reason, context, line, column⟩ := f
    obtain ⟨reason', context', line', column'⟩ := f'
    simp only at hreason hcontext hline hcolumn
    rw [hreason, hcontext, hline, hcolumn]
  · intro source f hf
    have hclear := clear_of_rejected hf
    exact ⟨f.firstLine, f.upcoming, hclear.linesOf_text,
      hclear.splitOn_upcoming, fun w hw => (hclear.solid w hw).1⟩

/-- Two texts that end too early, and one whose words look like the frame
around them. -/
theorem Failure.text_loses_nothing_frame :
    let early : Failure := ⟨.noSemicolon, [], none, none⟩
    let framed : Failure := ⟨.unknownStatement "at:",
      ["at:", "'", ",", "...", ";"], some 2, some 0⟩
    (Program.ofText "move" = .error (.rejected early)
      ∧ Program.ofText "wait(1)"
        = .error (.rejected (.before .noSemicolon []))
      ∧ early = .before .noSemicolon [])
    ∧ Program.ofText "wait;\nat: ',...;" = .error (.rejected framed)
    ∧ ∃ first upcoming, framed.text.toList.splitOn '\n'
        = [first, "   @ ...".toList ++ (upcoming ++ "...".toList)]
      ∧ upcoming.splitOn ' ' = [] :: framed.context.map String.toList
      ∧ ∀ w ∈ framed.context, w ≠ "" := by
  intro early framed
  have hmove : Program.ofText "move" = .error (.rejected early) := by
    decide +kernel
  have hwait : Program.ofText "wait(1)"
      = .error (.rejected (.before .noSemicolon [])) := by decide +kernel
  have hframed : Program.ofText "wait;\nat: ',...;"
      = .error (.rejected framed) := by decide +kernel
  obtain ⟨hinj, hlines⟩ := text_loses_nothing
  exact ⟨⟨hmove, hwait, hinj _ _ _ _ hmove hwait rfl⟩, hframed,
    hlines _ _ hframed⟩

end RobotLang
