/-
The tokens of two texts one behind the other.

Where two texts meet, a word could go on over the seam. It does not if no
letter ends the first text or none begins the second, and then the tokens
of both together are those of the first and those of the second, which
begin at the place that the first has reached. A text whose last word is a
mark ends in no letter, so it can be followed by any text.

The induction is on how the first text falls apart (`text_induction`): the
seam comes behind its last piece, and matters if that is a word.
-/
import RobotLang.Proofs.Token.Place

namespace RobotLang

open Text

namespace Lexeme

/-- Whether a word would go on with some characters is up to the first one
there is. -/
theorem goesOn_append (cs ds : List Char) :
    goesOn (cs ++ ds) = if cs = [] then goesOn ds else goesOn cs := by
  cases cs <;> simp [goesOn]

/-- The last character of a text is that of its last part. -/
theorem goesOn_reverse_append (cs ds : List Char) :
    goesOn (cs ++ ds).reverse
      = if ds = [] then goesOn cs.reverse else goesOn ds.reverse := by
  simp [goesOn_append]

/-- Letters are a word that would go on. -/
theorem goesOn_reverse_letters {w : List Char} (hne : w ≠ [])
    (hw : ∀ c ∈ w, isLetter c = true) : goesOn w.reverse = true := by
  cases hrev : w.reverse with
  | nil => exact absurd (List.reverse_eq_nil_iff.1 hrev) hne
  | cons c u => exact hw c (List.mem_reverse.1 (by simp [hrev]))

/-- If a text ends in no letter, nor does its last part. -/
theorem goesOn_reverse_of_append (cs : List Char) {ds : List Char}
    (h : goesOn (cs ++ ds).reverse = false) : goesOn ds.reverse = false := by
  rw [goesOn_reverse_append] at h
  by_cases hds : ds = []
  · rw [hds]
    rfl
  · rw [if_neg hds] at h
    exact h

/-- A text is split at a seam unless letters stand on both sides. -/
theorem scan_append (p : Place) (cs ds : List Char)
    (h : goesOn cs.reverse = false ∨ goesOn ds = false) :
    scan p (cs ++ ds) = scan p cs ++ scan (p.after cs) ds := by
  induction cs using text_induction generalizing p with
  | nil => rfl
  | blank c cs hc ih =>
      have h' := h.imp_left (goesOn_reverse_of_append [c])
      rw [List.cons_append, scan_blank hc, scan_blank hc, ih _ h']
      rfl
  | mark c cs hb hm ih =>
      have h' := h.imp_left (goesOn_reverse_of_append [c])
      rw [List.cons_append, scan_mark hb hm, scan_mark hb hm, ih _ h']
      rfl
  | word w rest hne hw hrest ih =>
      have h' := h.imp_left (goesOn_reverse_of_append w)
      have hseam : goesOn (rest ++ ds) = false := by
        rw [goesOn_append]
        split
        · next hnil =>
          -- the word ends at the seam, so no letter may begin behind it
          rw [hnil, List.append_nil, goesOn_reverse_letters hne hw] at h
          exact h.resolve_left (by decide)
        · exact hrest
      rw [List.append_assoc, scan_word hne hw hseam, scan_word hne hw hrest,
        ih _ h', Place.after_append]
      rfl

end Lexeme

-- =========================================================== the words

/-- The words of two texts are those of both together, unless letters stand
on both sides of the seam. -/
theorem wordsOf_append {cs ds : List Char}
    (h : Lexeme.goesOn cs.reverse = false ∨ Lexeme.goesOn ds = false) :
    wordsOf (cs ++ ds) = wordsOf cs ++ wordsOf ds := by
  rw [wordsOf, Lexeme.scan_append _ _ _ h, List.map_append,
    map_ofList_scan, map_ofList_scan]

/-- White space has no words. -/
theorem wordsOf_blanks_append {ws : List Char}
    (hws : ∀ c ∈ ws, isBlank c = true) (cs : List Char) :
    wordsOf (ws ++ cs) = wordsOf cs := by
  induction ws with
  | nil => rfl
  | cons c ws ih =>
      rw [List.cons_append, wordsOf_blank (hws c (List.mem_cons_self ..)),
        ih fun d hd => hws d (List.mem_cons_of_mem c hd)]

/-- A text whose last word is a mark ends in no letter. -/
theorem goesOn_reverse_of_mark {cs : List Char}
    (h : ∀ w, (wordsOf cs).getLast? = some w → ∃ m : Mark, w = m.word) :
    Lexeme.goesOn cs.reverse = false := by
  induction cs using text_induction with
  | nil => rfl
  | blank c cs hc ih =>
      rw [wordsOf_blank hc] at h
      rw [← List.singleton_append, Lexeme.goesOn_reverse_append]
      split
      · show isLetter c = false
        simp [isLetter, hc]
      · exact ih h
  | mark c cs hb hm ih =>
      rw [← List.singleton_append, Lexeme.goesOn_reverse_append]
      split
      · show isLetter c = false
        simp [isLetter, hm]
      · refine ih fun w hw => h w ?_
        rw [wordsOf, Lexeme.scan_mark hb hm, List.map_cons, map_ofList_scan,
          List.getLast?_cons, hw]
        rfl
  | word w rest hne hw hrest ih =>
      have hwords : wordsOf (w ++ rest) = String.ofList w :: wordsOf rest := by
        rw [wordsOf, Lexeme.scan_word hne hw hrest, List.map_cons,
          map_ofList_scan]
      rw [hwords, List.getLast?_cons] at h
      rw [Lexeme.goesOn_reverse_append]
      split
      · next hnil =>
        -- the word itself would be the mark
        rw [hnil] at h
        obtain ⟨m, hm⟩ := h _ rfl
        have hletters : w = [m.char] := by
          simpa [Mark.word] using congrArg String.toList hm
        have hletter := hw m.char (by simp [hletters])
        cases m <;> cases hletter
      · refine ih fun v hv => h v ?_
        rw [hv]
        rfl

end RobotLang
