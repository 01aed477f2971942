/-
How a text falls into tokens, from the left.

The split itself is built from the right. Read from the left it takes one
of three steps: white space is passed over, a mark is a token whatever
comes next, and a run of letters is a token if no letter comes next. Each
step leaves a text of its own to be split, which begins at the place that
the step has reached.

The words of a text do not depend on the place where it begins, so for
them the three steps are equations without places (`wordsOf`).
-/
import RobotLang.Token

namespace RobotLang

open Text

-- ========================================================= the lexemes

namespace Lexeme

theorem scan_blank {c : Char} (hc : isBlank c = true) (p : Place)
    (cs : List Char) : scan p (c :: cs) = scan (p.next c) cs := by
  rw [scan, if_pos hc]

theorem scan_mark {c : Char} (hb : isBlank c = false)
    (hm : isMark c = true) (p : Place) (cs : List Char) :
    scan p (c :: cs) = ⟨[c], p⟩ :: scan (p.next c) cs := by
  rw [scan, if_neg (by simp [hb]), if_pos (by simp [hm])]

theorem scan_letter {c : Char} (hc : isLetter c = true) (p : Place)
    (cs : List Char) :
    scan p (c :: cs)
      = if goesOn cs then extend c p (scan (p.next c) cs)
        else ⟨[c], p⟩ :: scan (p.next c) cs := by
  rw [isLetter, Bool.and_eq_true, Bool.not_eq_true', Bool.not_eq_true']
    at hc
  rw [scan, if_neg (by simp [hc.1])]
  cases goesOn cs <;> simp [hc.2]

/-- A run of letters that no letter follows is one lexeme. -/
theorem scan_word {w : List Char} (hne : w ≠ [])
    (hw : ∀ c ∈ w, isLetter c = true) {rest : List Char}
    (hrest : goesOn rest = false) (p : Place) :
    scan p (w ++ rest) = ⟨w, p⟩ :: scan (p.after w) rest := by
  induction w generalizing p with
  | nil => exact absurd rfl hne
  | cons c w ih =>
      have hc := hw c (List.mem_cons_self ..)
      have hw' : ∀ d ∈ w, isLetter d = true := fun d hd =>
        hw d (List.mem_cons_of_mem _ hd)
      rw [List.cons_append, scan_letter hc]
      cases w with
      | nil => rw [List.nil_append, if_neg (by simp [hrest])]; rfl
      | cons d w =>
          have hgo : goesOn (d :: w ++ rest) = true :=
            hw' d (List.mem_cons_self ..)
          rw [if_pos hgo, ih (List.cons_ne_nil _ _) hw']
          rfl

/-- The letters of the lexemes do not depend on where the text begins. -/
theorem map_letters_scan (p q : Place) (cs : List Char) :
    (scan p cs).map letters = (scan q cs).map letters := by
  induction cs generalizing p q with
  | nil => rfl
  | cons c cs ih =>
      have hlater := ih (p.next c) (q.next c)
      by_cases hb : isBlank c = true
      · rw [scan_blank hb, scan_blank hb, hlater]
      · rw [Bool.not_eq_true] at hb
        by_cases hm : isMark c = true
        · rw [scan_mark hb hm, scan_mark hb hm, List.map_cons,
            List.map_cons, hlater]
        · have hc : isLetter c = true := by simp [isLetter, hb, hm]
          rw [scan_letter hc, scan_letter hc]
          split
          · -- both first lexemes get the same letter in front
            cases hp : scan (p.next c) cs with
            | nil =>
                rw [hp, List.map_nil, eq_comm, List.map_eq_nil_iff]
                  at hlater
                rw [hlater]
                rfl
            | cons l ls =>
                rw [hp, List.map_cons] at hlater
                obtain ⟨l', ls', hq, hl, hls⟩ :=
                  List.map_eq_cons_iff.1 hlater.symm
                rw [hq, extend, extend, List.map_cons, List.map_cons, hl,
                  hls]
          · rw [List.map_cons, List.map_cons, hlater]

end Lexeme

-- =========================================================== the words

/-- The words that some characters fall into. -/
def wordsOf (cs : List Char) : List String :=
  (Lexeme.scan Place.start cs).map fun l => String.ofList l.letters

theorem map_value_tokenize (text : String) :
    (tokenize text).map Token.value = wordsOf text.toList := by
  rw [tokenize, List.map_map]
  rfl

/-- The words are those of the lexemes, wherever the text begins. -/
theorem map_ofList_scan (p : Place) (cs : List Char) :
    (Lexeme.scan p cs).map (fun l => String.ofList l.letters)
      = wordsOf cs := by
  have h := congrArg (List.map String.ofList)
    (Lexeme.map_letters_scan p Place.start cs)
  rw [List.map_map, List.map_map] at h
  exact h

@[simp] theorem wordsOf_nil : wordsOf [] = [] := rfl

theorem wordsOf_blank {c : Char} (hc : isBlank c = true)
    (cs : List Char) : wordsOf (c :: cs) = wordsOf cs := by
  rw [wordsOf, Lexeme.scan_blank hc, map_ofList_scan]

/-- A mark is a word, whatever comes next. -/
@[simp] theorem wordsOf_mark (m : Mark) (cs : List Char) :
    wordsOf (m.char :: cs) = m.word :: wordsOf cs := by
  have hb : isBlank m.char = false := by cases m <;> rfl
  have hm : isMark m.char = true := by cases m <;> rfl
  rw [wordsOf, Lexeme.scan_mark hb hm, List.map_cons, map_ofList_scan]
  rfl

/-- Letters are a word if no letter comes next. -/
theorem wordsOf_word {w : String} (hne : w.toList ≠ [])
    (hw : ∀ c ∈ w.toList, isLetter c = true) {rest : List Char}
    (hrest : Lexeme.goesOn rest = false) :
    wordsOf (w.toList ++ rest) = w :: wordsOf rest := by
  rw [wordsOf, Lexeme.scan_word hne hw hrest, List.map_cons,
    map_ofList_scan, String.ofList_toList]

end RobotLang
