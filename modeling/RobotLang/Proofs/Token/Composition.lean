/-
The tokens of a text in two parts.

If the cut between two parts of a text is not inside a word, the tokens of
the whole are those of the first part and, behind them, those of the second.
If it is, the last token of the first part and the first of the second are
one token of the whole, and all others are as before
(`tokenize_append_cases`).

A part counts its places from its own beginning. In the whole they count
from the beginning of what stands in front: its line feeds are added to the
line, and, on the first line of the part, the characters behind the last of
them to the column. Counting on from the place that the first part has
reached comes to the same, because going over a character and adding what
stands in front may be done in either order (`Place.next_behind`).

What fuses at the cut is found by induction on how the first part falls
apart (`text_induction`): the cut is behind its last piece, which is a word.
-/
import RobotLang.Proofs.Token.Pieces
import RobotLang.Proofs.Token.Seam

namespace RobotLang

open Text

-- ========================================================== relocation

/-- A place in a text, counted from the beginning of what stands in front of
the text. -/
def Place.behind (front : List Char) (p : Place) : Place where
  line := p.line + front.count '\n'
  column :=
    if p.line = 1 then
      p.column + (front.reverse.takeWhile (· != '\n')).length
    else p.column

namespace Place

variable (front : List Char)

/-- The first place behind some characters is the one they lead to. -/
theorem start_behind : start.behind front = start.after front := by
  have hafter := start_after_reverse front.reverse
  rw [List.reverse_reverse, List.count_reverse] at hafter
  rw [hafter, behind, start, if_pos rfl, Int.zero_add]

theorem one_le_line_next {p : Place} (hp : 1 ≤ p.line) (c : Char) :
    1 ≤ (p.next c).line := by
  unfold next
  split
  · exact Int.le_add_one hp
  · exact hp

/-- A character leads on alike, whatever stands in front. -/
theorem next_behind {p : Place} (hp : 1 ≤ p.line) (c : Char) :
    (p.next c).behind front = (p.behind front).next c := by
  unfold next
  by_cases hc : c = '\n'
  · -- a later line than the first, on which the columns stay
    have hline : p.line + 1 ≠ 1 := by omega
    rw [if_pos hc, if_pos hc]
    simp only [behind, if_neg hline]
    congr 1
    omega
  · rw [if_neg hc, if_neg hc]
    by_cases hline : p.line = 1
    · simp only [behind, if_pos hline]
      congr 1
      omega
    · simp only [behind, if_neg hline]

end Place

/-- A lexeme of a text behind some characters. -/
def Lexeme.behind (front : List Char) (l : Lexeme) : Lexeme :=
  ⟨l.letters, l.place.behind front⟩

/-- A token of a text behind another text. -/
def Token.behind (front : String) (t : Token) : Token :=
  ⟨t.value, t.place.behind front.toList⟩

namespace Lexeme

variable (front : List Char)

theorem extend_behind (c : Char) (p : Place) (ls : List Lexeme) :
    extend c (p.behind front) (ls.map (behind front))
      = (extend c p ls).map (behind front) := by
  cases ls <;> rfl

/-- The lexemes of a text behind some characters are its own, there. -/
theorem scan_behind {p : Place} (hp : 1 ≤ p.line) (cs : List Char) :
    scan (p.behind front) cs = (scan p cs).map (behind front) := by
  induction cs generalizing p with
  | nil => rfl
  | cons c cs ih =>
      have hlater := ih (Place.one_le_line_next hp c)
      rw [Place.next_behind front hp] at hlater
      rw [scan, scan, hlater]
      by_cases hb : isBlank c = true
      · rw [if_pos hb, if_pos hb]
      · rw [if_neg hb, if_neg hb]
        split
        · rfl
        · exact extend_behind front c p _

end Lexeme

/-- The tokens of the lexemes that begin where some characters lead to. -/
theorem map_token_scan_after (a b : String) :
    (Lexeme.scan (Place.start.after a.toList) b.toList).map Lexeme.token
      = (tokenize b).map (Token.behind a) := by
  rw [← Place.start_behind, Lexeme.scan_behind _ (Int.le_refl 1), tokenize,
    List.map_map, List.map_map]
  rfl

-- ============================================================== fusing

/-- A text that begins with a letter begins with a word. -/
theorem exists_word_of_goesOn {cs : List Char}
    (h : Lexeme.goesOn cs = true) :
    ∃ w rest, cs = w ++ rest ∧ w ≠ [] ∧ (∀ c ∈ w, isLetter c = true)
      ∧ Lexeme.goesOn rest = false := by
  induction cs using text_induction with
  | nil => cases h
  | blank c cs hc =>
      have hletter : isLetter c = true := h
      rw [isLetter, hc] at hletter
      cases hletter
  | mark c cs hb hm =>
      have hletter : isLetter c = true := h
      rw [isLetter_mark hm] at hletter
      cases hletter
  | word w rest hne hw hrest => exact ⟨w, rest, rfl, hne, hw, hrest⟩

namespace Lexeme

/-- Behind a character that is no letter a text still has to end. -/
theorem goesOn_reverse_tail {c : Char} (hc : isLetter c = false)
    {cs : List Char} (h : goesOn (c :: cs).reverse = true) :
    goesOn cs.reverse = true := by
  rw [← List.singleton_append, goesOn_reverse_append] at h
  split at h
  · have hletter : isLetter c = true := h
    rw [hc] at hletter
    cases hletter
  · exact h

/-- The lexeme that a cut inside a word leaves on either side of it. -/
theorem scan_append_fused (p : Place) (cs ds : List Char)
    (hcs : goesOn cs.reverse = true) (hds : goesOn ds = true) :
    ∃ before l m later,
      scan p cs = before ++ [l] ∧ scan (p.after cs) ds = m :: later
      ∧ scan p (cs ++ ds)
        = before ++ ⟨l.letters ++ m.letters, l.place⟩ :: later := by
  induction cs using text_induction generalizing p with
  | nil => cases hcs
  | blank c cs hc ih =>
      have hletter : isLetter c = false := by simp [isLetter, hc]
      obtain ⟨before, l, m, later, hfirst, hsecond, hboth⟩ :=
        ih (p.next c) (goesOn_reverse_tail hletter hcs)
      refine ⟨before, l, m, later, ?_, hsecond, ?_⟩
      · rw [scan_blank hc, hfirst]
      · rw [List.cons_append, scan_blank hc, hboth]
  | mark c cs hb hm ih =>
      obtain ⟨before, l, m, later, hfirst, hsecond, hboth⟩ :=
        ih (p.next c) (goesOn_reverse_tail (isLetter_mark hm) hcs)
      refine ⟨⟨[c], p⟩ :: before, l, m, later, ?_, hsecond, ?_⟩
      · rw [scan_mark hb hm, hfirst, List.cons_append]
      · rw [List.cons_append, scan_mark hb hm, hboth, List.cons_append]
  | word w rest hne hw hrest ih =>
      by_cases hnil : rest = []
      · -- the cut is in this word: it goes on with the next one
        subst hnil
        obtain ⟨v, ds, rfl, -, hv, hstop⟩ := exists_word_of_goesOn hds
        have hvne : v ≠ [] := by
          intro h
          rw [h, List.nil_append, hstop] at hds
          cases hds
        have hlong : w ++ v ≠ [] := fun h =>
          hne (List.append_eq_nil_iff.1 h).1
        have hletters : ∀ c ∈ w ++ v, isLetter c = true := fun c hc =>
          (List.mem_append.1 hc).elim (hw c) (hv c)
        refine ⟨[], ⟨w, p⟩, ⟨v, p.after w⟩, scan (p.after (w ++ v)) ds,
          ?_, ?_, ?_⟩
        · rw [scan_word hne hw hrest]
          rfl
        · rw [List.append_nil, scan_word hvne hv hstop, Place.after_append]
        · rw [List.append_nil, ← List.append_assoc,
            scan_word hlong hletters hstop, List.nil_append]
      · rw [goesOn_reverse_append, if_neg hnil] at hcs
        obtain ⟨before, l, m, later, hfirst, hsecond, hboth⟩ :=
          ih (p.after w) hcs
        have hseam : goesOn (rest ++ ds) = false := by
          rw [goesOn_append, if_neg hnil]
          exact hrest
        refine ⟨⟨w, p⟩ :: before, l, m, later, ?_, ?_, ?_⟩
        · rw [scan_word hne hw hrest, hfirst, List.cons_append]
        · rw [Place.after_append]
          exact hsecond
        · rw [List.append_assoc, scan_word hne hw hseam, hboth,
            List.cons_append]

end Lexeme

-- ============================================================= two parts

/-- No word goes over the cut between two texts: the first is empty or ends
in white space or a mark, or the second is empty or begins with such. -/
def CleanCut (a b : String) : Prop :=
  (∀ c, a.toList.getLast? = some c → isBlank c = true ∨ isMark c = true)
    ∨ ∀ c, b.toList.head? = some c → isBlank c = true ∨ isMark c = true

theorem isLetter_eq_false_iff {c : Char} :
    isLetter c = false ↔ isBlank c = true ∨ isMark c = true := by
  unfold isLetter
  cases isBlank c <;> simp

theorem goesOn_eq_false_iff {cs : List Char} :
    Lexeme.goesOn cs = false
      ↔ ∀ c, cs.head? = some c → isBlank c = true ∨ isMark c = true := by
  cases cs with
  | nil => simp [Lexeme.goesOn]
  | cons c cs => simp [Lexeme.goesOn, isLetter_eq_false_iff]

theorem cleanCut_iff {a b : String} :
    CleanCut a b ↔ Lexeme.goesOn a.toList.reverse = false
      ∨ Lexeme.goesOn b.toList = false := by
  rw [CleanCut, goesOn_eq_false_iff, goesOn_eq_false_iff, List.head?_reverse]

/-- A text is split part by part. At a clean cut the tokens of the whole are
those of both parts, the second ones where they stand behind the first part;
at a cut inside a word the last token of the first part and the first one of
the second are one, which begins where the last one did, and the others are
as at a clean cut. -/
theorem tokenize_append_cases (a b : String) :
    (CleanCut a b →
      tokenize (a ++ b) = tokenize a ++ (tokenize b).map (Token.behind a))
    ∧ (¬ CleanCut a b →
      ∃ before last first later,
        tokenize a = before ++ [last] ∧ tokenize b = first :: later
        ∧ tokenize (a ++ b)
          = before ++ ⟨last.value ++ first.value, last.place⟩
            :: later.map (Token.behind a)) := by
  rw [cleanCut_iff]
  constructor
  · intro hcut
    rw [tokenize, String.toList_append, Lexeme.scan_append _ _ _ hcut,
      List.map_append, map_token_scan_after]
    rfl
  · intro hcut
    rw [not_or, Bool.not_eq_false, Bool.not_eq_false] at hcut
    obtain ⟨before, l, m, later, ha, hb, hboth⟩ :=
      Lexeme.scan_append_fused Place.start a.toList b.toList hcut.1 hcut.2
    have hsecond := map_token_scan_after a b
    rw [hb, List.map_cons] at hsecond
    obtain ⟨first, rest, hsplit, hfirst, hlater⟩ :=
      List.map_eq_cons_iff.1 hsecond.symm
    refine ⟨before.map Lexeme.token, l.token, first, rest, ?_, hsplit, ?_⟩
    · rw [tokenize, ha, List.map_append, List.map_singleton]
    · have hvalue : first.value = String.ofList m.letters :=
        congrArg Token.value hfirst
      rw [tokenize, String.toList_append, hboth, List.map_append,
        List.map_cons, hlater, hvalue]
      simp only [Lexeme.token, String.ofList_append]

/-- A cut behind a line feed, and one inside a word on the second line. -/
theorem tokenize_append_cases_lines :
    CleanCut "if(\n " "lt x\ny"
    ∧ tokenize ("if(\n " ++ "lt x\ny")
      = tokenize "if(\n "
        ++ [⟨"lt", ⟨2, 1⟩⟩, ⟨"x", ⟨2, 4⟩⟩, ⟨"y", ⟨3, 0⟩⟩]
    ∧ ¬ CleanCut "a;\n mo" "ve x\ny"
    ∧ ∃ before last first later,
      tokenize "a;\n mo" = before ++ [last]
      ∧ tokenize "ve x\ny" = first :: later
      ∧ tokenize ("a;\n mo" ++ "ve x\ny")
        = before ++ ⟨last.value ++ first.value, last.place⟩
          :: later.map (Token.behind "a;\n mo") := by
  have hclean : CleanCut "if(\n " "lt x\ny" :=
    cleanCut_iff.2 (.inl (by decide))
  have hinside : ¬ CleanCut "a;\n mo" "ve x\ny" := by
    rw [cleanCut_iff]
    decide
  exact ⟨hclean, (tokenize_append_cases _ _).1 hclean, hinside,
    (tokenize_append_cases _ _).2 hinside⟩

end RobotLang
