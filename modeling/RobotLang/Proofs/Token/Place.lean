/-
Where the tokens of a text stand.

A token's place is counted along the text, one character after another. It
leads back into the text: the line of that number, from the column of that
number on, begins with the token (`tokenize_located`). Two facts meet here.
Every lexeme stands in the text where as many characters have been passed
as its place says, and what has been passed up to a place is all the lines
above it and the columns in front of it.

The first is by induction on how a text falls into white space, marks and
words (`text_induction`); the second on the characters passed, with those
of them that are on the current line so far.
-/
import RobotLang.Proofs.Token

namespace RobotLang

open Text

-- ================================================= how a text falls apart

/-- What a text is made of, from the left: white space, marks, and words
that no letter follows. -/
theorem text_induction {motive : List Char → Prop} (nil : motive [])
    (blank : ∀ c cs, isBlank c = true → motive cs → motive (c :: cs))
    (mark : ∀ c cs, isBlank c = false → isMark c = true → motive cs →
      motive (c :: cs))
    (word : ∀ w rest, w ≠ [] → (∀ c ∈ w, isLetter c = true) →
      Lexeme.goesOn rest = false → motive rest → motive (w ++ rest))
    (cs : List Char) : motive cs := by
  match cs with
  | [] => exact nil
  | c :: ds =>
      by_cases hb : isBlank c = true
      · exact blank c ds hb (text_induction nil blank mark word ds)
      rw [Bool.not_eq_true] at hb
      by_cases hm : isMark c = true
      · exact mark c ds hb hm (text_induction nil blank mark word ds)
      -- a letter: the whole run of letters that it begins is a word
      have hc : isLetter c = true := by simp [isLetter, hb, hm]
      have hrun : c :: ds
          = (c :: ds.takeWhile isLetter) ++ ds.dropWhile isLetter := by
        rw [List.cons_append, List.takeWhile_append_dropWhile]
      have hrest : Lexeme.goesOn (ds.dropWhile isLetter) = false := by
        cases hd : ds.dropWhile isLetter with
        | nil => rfl
        | cons d es =>
            have hhead := List.head?_dropWhile_not isLetter ds
            rw [hd] at hhead
            have hstop : isLetter d = false := by simpa using hhead
            exact hstop
      have hshort : (ds.dropWhile isLetter).length < (c :: ds).length := by
        have hsuffix : ds.dropWhile isLetter <:+ ds :=
          List.dropWhile_suffix isLetter
        have hle := hsuffix.length_le
        rw [List.length_cons]
        omega
      rw [hrun]
      refine word _ _ (List.cons_ne_nil _ _) ?_ hrest
        (text_induction nil blank mark word (ds.dropWhile isLetter))
      intro d hd
      rcases List.mem_cons.1 hd with rfl | hd
      · exact hc
      · exact List.all_eq_true.1 List.all_takeWhile d hd
termination_by cs.length
decreasing_by
  · exact Nat.lt_succ_self ds.length
  · exact Nat.lt_succ_self ds.length
  · exact hshort

-- ========================================================== the lexemes

theorem Place.after_append (p : Place) (cs ds : List Char) :
    p.after (cs ++ ds) = (p.after cs).after ds := List.foldl_append

/-- A lexeme stands where its place says, and has no white space in it. -/
theorem Lexeme.standing {p : Place} {cs : List Char} {l : Lexeme}
    (h : l ∈ scan p cs) :
    (∃ before behind, cs = before ++ (l.letters ++ behind)
      ∧ l.place = p.after before)
    ∧ ∀ c ∈ l.letters, isBlank c = false := by
  induction cs using text_induction generalizing p with
  | nil => cases h
  | blank c cs hc ih =>
      rw [scan_blank hc] at h
      obtain ⟨⟨before, behind, rfl, hplace⟩, hletters⟩ := ih h
      exact ⟨⟨c :: before, behind, rfl, hplace⟩, hletters⟩
  | mark c cs hb hm ih =>
      rw [scan_mark hb hm] at h
      rcases List.mem_cons.1 h with rfl | h
      · refine ⟨⟨[], cs, rfl, rfl⟩, fun d hd => ?_⟩
        rw [List.mem_singleton.1 hd]
        exact hb
      · obtain ⟨⟨before, behind, rfl, hplace⟩, hletters⟩ := ih h
        exact ⟨⟨c :: before, behind, rfl, hplace⟩, hletters⟩
  | word w rest hne hw hrest ih =>
      rw [scan_word hne hw hrest] at h
      rcases List.mem_cons.1 h with rfl | h
      · refine ⟨⟨[], rest, rfl, rfl⟩, fun c hc => ?_⟩
        have hletter := hw c hc
        rw [isLetter, Bool.and_eq_true, Bool.not_eq_true'] at hletter
        exact hletter.1
      · obtain ⟨⟨before, behind, rfl, hplace⟩, hletters⟩ := ih h
        refine ⟨⟨w ++ before, behind, by rw [List.append_assoc], ?_⟩,
          hletters⟩
        rw [hplace, Place.after_append]

-- ============================================================ the lines

/-- The lines of some characters; only a line feed ends a line. -/
def linesOf (cs : List Char) : List (List Char) := cs.splitOn '\n'

theorem linesOf_append {front : List Char} (hfront : '\n' ∉ front)
    (cs : List Char) :
    linesOf (front ++ '\n' :: cs) = front :: linesOf cs :=
  List.splitOn_append_cons_self_of_not_mem hfront cs

/-- The first line begins with what is in front of the first line feed. -/
theorem first_line {front : List Char} (hfront : '\n' ∉ front)
    (cs : List Char) :
    ∃ line, (linesOf (front ++ cs))[0]? = some line ∧ front <+: line := by
  by_cases hcs : '\n' ∈ cs
  · obtain ⟨before, behind, rfl, hbefore⟩ :=
      List.eq_append_cons_of_mem hcs
    have hnot : '\n' ∉ front ++ before := by simp [hfront, hbefore]
    rw [← List.append_assoc, linesOf_append hnot]
    exact ⟨_, rfl, List.prefix_append front before⟩
  · have hnot : '\n' ∉ front ++ cs := by simp [hfront, hcs]
    rw [linesOf, List.splitOn_eq_singleton hnot]
    exact ⟨_, rfl, List.prefix_append front cs⟩

/-- The place behind some characters counts the lines above and the
characters in front; a piece without a line feed that stands there is found
at that line and column. The characters `front` are on the line where the
counting begins. -/
theorem Place.after_locates {piece : List Char} (hpiece : '\n' ∉ piece)
    (passed : List Char) {front : List Char} (hfront : '\n' ∉ front)
    (above : Nat) (behind : List Char) :
    ∃ (below column : Nat) (line : List Char),
      Place.after ⟨above + 1, front.length⟩ passed
        = ⟨(above + below : Nat) + 1, column⟩
      ∧ (linesOf (front ++ (passed ++ (piece ++ behind))))[below]?
        = some line
      ∧ piece <+: line.drop column := by
  induction passed generalizing front above with
  | nil =>
      have hnot : '\n' ∉ front ++ piece := by simp [hfront, hpiece]
      obtain ⟨line, hline, more, rfl⟩ := first_line hnot behind
      refine ⟨0, front.length, front ++ piece ++ more, rfl, ?_, ?_⟩
      · rw [List.nil_append, ← List.append_assoc]
        exact hline
      · rw [List.append_assoc, List.drop_left]
        exact List.prefix_append piece more
  | cons c cs ih =>
      by_cases hc : c = '\n'
      · -- a new line begins, with nothing on it yet
        subst hc
        obtain ⟨below, column, line, hplace, hline, hprefix⟩ :=
          ih (List.not_mem_nil : '\n' ∉ ([] : List Char)) (above + 1)
        refine ⟨below + 1, column, line, ?_, ?_, hprefix⟩
        · have hnext : Place.next ⟨above + 1, front.length⟩ '\n'
              = ⟨(above + 1 : Nat) + 1, ([] : List Char).length⟩ := rfl
          show Place.after (Place.next ⟨above + 1, front.length⟩ '\n') cs = _
          rw [hnext, hplace]
          congr 1
          omega
        · rw [List.cons_append, linesOf_append hfront]
          exact hline
      · have hnot : '\n' ∉ front ++ [c] := by
          simp [hfront, Ne.symm hc]
        obtain ⟨below, column, line, hplace, hline, hprefix⟩ :=
          ih hnot above
        refine ⟨below, column, line, ?_, ?_, hprefix⟩
        · have hnext : Place.next ⟨above + 1, front.length⟩ c
              = ⟨above + 1, (front ++ [c]).length⟩ := by
            rw [Place.next, if_neg hc, List.length_append]
            rfl
          show Place.after (Place.next ⟨above + 1, front.length⟩ c) cs = _
          rw [hnext, hplace]
        · rw [List.append_assoc] at hline
          exact hline

-- =========================================================== the tokens

/-- A token is found in the text at its line, from its column on. -/
theorem tokenize_located {text : String} {t : Token}
    (h : t ∈ tokenize text) :
    ∃ (above column : Nat) (line : List Char),
      t.place = ⟨above + 1, column⟩
      ∧ (linesOf text.toList)[above]? = some line
      ∧ t.value.toList <+: line.drop column := by
  obtain ⟨l, hl, rfl⟩ := List.mem_map.1 h
  obtain ⟨⟨before, behind, htext, hplace⟩, hletters⟩ := Lexeme.standing hl
  have hpiece : '\n' ∉ l.letters := fun hmem =>
    absurd (hletters '\n' hmem) (by decide)
  obtain ⟨above, column, line, hafter, hline, hprefix⟩ :=
    Place.after_locates hpiece before
      (List.not_mem_nil : '\n' ∉ ([] : List Char)) 0 behind
  refine ⟨above, column, line, ?_, ?_, ?_⟩
  · show l.place = _
    rw [hplace]
    rw [Nat.zero_add] at hafter
    exact hafter
  · rw [htext]
    exact hline
  · rw [Lexeme.token, String.toList_ofList]
    exact hprefix

end RobotLang
