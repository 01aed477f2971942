/-
The tokens of a text are its marks and its longest words.

A piece is a cut of a text into what stands in front, the characters of the
piece, and what stands behind. A lexical piece is a mark, or a run of
letters with no letter beside it. The tokens are exactly the lexical
pieces, in the order in which they stand, and each has the place that what
stands in front of it counts to (`tokenize_eq_pieces`).

A part of a text is split as it would be in the whole if it does not begin
inside a word: no letter ends what stands in front, or none begins the
part. This is kept as the split goes over white space, marks and words, so
the induction is on how a text falls apart (`text_induction`), with what
has been passed in front. That no other piece is lexical comes to this: one
that begins inside a word has a letter beside it, and two runs of letters
that begin at the same character and cannot go on are the same.
-/
import RobotLang.Proofs.Token.Place

namespace RobotLang

open Text

/-- No mark is a letter. -/
theorem isLetter_mark {c : Char} (hc : isMark c = true) :
    isLetter c = false := by
  rw [isLetter, hc, Bool.not_true, Bool.and_false]

-- ============================================================== pieces

/-- A piece of a text, with what stands in front of it and behind it. -/
structure Piece where
  before : List Char
  letters : List Char
  behind : List Char

namespace Piece

/-- The text that the piece is cut from. -/
def text (x : Piece) : List Char := x.before ++ (x.letters ++ x.behind)

/-- A mark, or a run of letters that has no letter beside it. -/
def Lexical (x : Piece) : Prop :=
  (∃ c, isMark c = true ∧ x.letters = [c])
    ∨ (x.letters ≠ [] ∧ (∀ c ∈ x.letters, isLetter c = true)
      ∧ Lexeme.goesOn x.before.reverse = false
      ∧ Lexeme.goesOn x.behind = false)

/-- The piece as a token: its line is one more than the line feeds in front
of it, its column the number of characters since the last of them. -/
def token (x : Piece) : Token where
  value := String.ofList x.letters
  place :=
    { line := 1 + x.before.count '\n'
      column := (x.before.reverse.takeWhile (· != '\n')).length }

theorem Lexical.ne_nil {x : Piece} (h : x.Lexical) : x.letters ≠ [] := by
  rcases h with ⟨c, -, hc⟩ | ⟨hne, -⟩
  · rw [hc]
    exact List.cons_ne_nil c []
  · exact hne

/-- The characters of a lexical piece that does not begin with a mark are
letters. -/
theorem Lexical.letters_of_head {x : Piece} (h : x.Lexical) {c : Char}
    (hc : isLetter c = true) {cs : List Char} (hx : x.letters = c :: cs) :
    (∀ d ∈ x.letters, isLetter d = true)
      ∧ Lexeme.goesOn x.before.reverse = false
      ∧ Lexeme.goesOn x.behind = false := by
  rcases h with ⟨d, hd, hletters⟩ | ⟨-, hrun⟩
  · -- the mark would be a letter
    rw [hletters] at hx
    obtain ⟨rfl, -⟩ := List.cons.inj hx
    rw [isLetter_mark hd] at hc
    cases hc
  · exact hrun

end Piece

-- ============================================================== places

/-- The place behind some characters at the beginning of a text, which are
given backwards. -/
theorem Place.start_after_reverse (cs : List Char) :
    Place.start.after cs.reverse = ⟨1 + cs.count '\n',
      (cs.takeWhile (· != '\n')).length⟩ := by
  induction cs with
  | nil => rfl
  | cons c cs ih =>
      rw [List.reverse_cons, Place.after_append, ih]
      show Place.next _ c = _
      by_cases hc : c = '\n'
      · subst hc
        simp [Place.next]
        omega
      · simp [Place.next, hc]

/-- A lexeme behind some characters is a piece behind them. -/
theorem Piece.token_eq (before letters behind : List Char) :
    Lexeme.token ⟨letters, Place.start.after before⟩
      = Piece.token ⟨before, letters, behind⟩ := by
  have hplace := Place.start_after_reverse before.reverse
  rw [List.reverse_reverse, List.count_reverse] at hplace
  rw [hplace]
  rfl

-- =========================================================== the split

/-- A run of letters is what can be taken of them. -/
theorem takeWhile_isLetter {w rest : List Char}
    (hw : ∀ c ∈ w, isLetter c = true)
    (hrest : Lexeme.goesOn rest = false) :
    (w ++ rest).takeWhile isLetter = w := by
  have hstop : rest.takeWhile isLetter = [] := by
    cases rest with
    | nil => rfl
    | cons c cs =>
        have hc : isLetter c = false := hrest
        rw [List.takeWhile_cons, hc]
        rfl
  rw [List.takeWhile_append_of_pos hw, hstop, List.append_nil]

/-- The lexical pieces of a text that begin in its last part. -/
def LexicalIn (before cs : List Char) (x : Piece) : Prop :=
  x.Lexical ∧ ∃ u, x.before = before ++ u ∧ cs = u ++ (x.letters ++ x.behind)

namespace LexicalIn

variable {before cs : List Char} {x : Piece} {c : Char}

/-- Unless a piece begins with the first character, it begins later. -/
theorem cons_iff :
    LexicalIn before (c :: cs) x
      ↔ LexicalIn (before ++ [c]) cs x
        ∨ (x.Lexical ∧ x.before = before
          ∧ c :: cs = x.letters ++ x.behind) := by
  constructor
  · intro h
    obtain ⟨hx, u, hbefore, hcs⟩ := h
    cases u with
    | nil => exact .inr ⟨hx, by rw [hbefore, List.append_nil], hcs⟩
    | cons d u =>
        obtain ⟨rfl, hrest⟩ := List.cons.inj hcs
        refine .inl ⟨hx, u, ?_, hrest⟩
        rw [hbefore, List.append_assoc, List.singleton_append]
  · intro h
    rcases h with ⟨hx, u, hbefore, hcs⟩ | ⟨hx, hbefore, hcs⟩
    · refine ⟨hx, c :: u, ?_, congrArg (c :: ·) hcs⟩
      rw [hbefore, List.append_assoc, List.singleton_append]
    · exact ⟨hx, [], by rw [hbefore, List.append_nil], hcs⟩

/-- No lexical piece begins with white space. -/
theorem blank_iff (hc : isBlank c = true) :
    LexicalIn before (c :: cs) x ↔ LexicalIn (before ++ [c]) cs x := by
  rw [cons_iff, or_iff_left]
  intro h
  obtain ⟨hx, -, hcs⟩ := h
  rcases hx with ⟨d, hd, hletters⟩ | ⟨hne, hrun, -⟩
  · rw [hletters, List.singleton_append] at hcs
    obtain ⟨rfl, -⟩ := List.cons.inj hcs
    -- no mark is white space
    obtain ⟨m, -, hm⟩ := List.any_eq_true.1 hd
    rw [← eq_of_beq hm] at hc
    cases m <;> cases hc
  · cases hletters : x.letters with
    | nil => exact hne hletters
    | cons d ds =>
        rw [hletters] at hcs hrun
        obtain ⟨rfl, -⟩ := List.cons.inj hcs
        have hd := hrun c (List.mem_cons_self ..)
        rw [isLetter, hc] at hd
        cases hd

/-- A mark is a lexical piece by itself. -/
theorem mark_iff (hm : isMark c = true) :
    LexicalIn before (c :: cs) x
      ↔ x = ⟨before, [c], cs⟩ ∨ LexicalIn (before ++ [c]) cs x := by
  rw [cons_iff, or_comm]
  refine or_congr_left ⟨fun h => ?_, fun h => ?_⟩
  · obtain ⟨hx, hbefore, hcs⟩ := h
    obtain ⟨before', letters, behind⟩ := x
    cases letters with
    | nil => exact absurd rfl hx.ne_nil
    | cons d ds =>
        obtain ⟨rfl, hds⟩ := List.cons.inj hcs
        rcases hx with ⟨d, -, hletters⟩ | ⟨-, hrun, -⟩
        · obtain ⟨-, rfl⟩ := List.cons.inj hletters
          cases hbefore
          cases hds
          rfl
        · have hletter := hrun c (List.mem_cons_self ..)
          rw [isLetter_mark hm] at hletter
          cases hletter
  · rw [h]
    exact ⟨.inl ⟨c, hm, rfl⟩, rfl, rfl⟩

/-- No lexical piece begins inside a word. -/
theorem inside_iff {w rest : List Char}
    (hw : ∀ d ∈ w, isLetter d = true)
    (hbefore : Lexeme.goesOn before.reverse = true) :
    LexicalIn before (w ++ rest) x ↔ LexicalIn (before ++ w) rest x := by
  induction w generalizing before with
  | nil => rw [List.nil_append, List.append_nil]
  | cons c w ih =>
      have hc := hw c (List.mem_cons_self ..)
      rw [List.cons_append, cons_iff, or_iff_left, ih
        (fun d hd => hw d (List.mem_cons_of_mem c hd)),
        List.append_assoc, List.singleton_append]
      · rw [List.reverse_append]
        exact hc
      · intro h
        obtain ⟨hx, hfront, hcs⟩ := h
        cases hletters : x.letters with
        | nil => exact hx.ne_nil hletters
        | cons d ds =>
            rw [hletters] at hcs
            obtain ⟨rfl, -⟩ := List.cons.inj hcs
            have hgo := (hx.letters_of_head hc hletters).2.1
            rw [hfront, hbefore] at hgo
            cases hgo

/-- A word is a lexical piece, and no other one begins in it. -/
theorem word_iff {w rest : List Char} (hne : w ≠ [])
    (hw : ∀ d ∈ w, isLetter d = true)
    (hrest : Lexeme.goesOn rest = false)
    (hbefore : Lexeme.goesOn before.reverse = false) :
    LexicalIn before (w ++ rest) x
      ↔ x = ⟨before, w, rest⟩ ∨ LexicalIn (before ++ w) rest x := by
  cases w with
  | nil => exact absurd rfl hne
  | cons c w =>
      have hc := hw c (List.mem_cons_self ..)
      have hgo : Lexeme.goesOn (before ++ [c]).reverse = true := by
        rw [List.reverse_append]
        exact hc
      rw [List.cons_append, cons_iff, or_comm, inside_iff
        (fun d hd => hw d (List.mem_cons_of_mem c hd)) hgo,
        List.append_assoc, List.singleton_append]
      refine or_congr_left ⟨fun h => ?_, fun h => ?_⟩
      · obtain ⟨hx, hfront, hcs⟩ := h
        obtain ⟨before', letters, behind⟩ := x
        cases letters with
        | nil => exact absurd rfl hx.ne_nil
        | cons d ds =>
            obtain ⟨rfl, htail⟩ := List.cons.inj hcs
            obtain ⟨hrun, -, hstop⟩ := hx.letters_of_head hc rfl
            -- both are the letters that can be taken from here
            have hsame : c :: w = c :: ds :=
              calc c :: w
                _ = ((c :: w) ++ rest).takeWhile isLetter :=
                    (takeWhile_isLetter hw hrest).symm
                _ = ((c :: ds) ++ behind).takeWhile isLetter :=
                    congrArg (List.takeWhile isLetter) hcs
                _ = c :: ds := takeWhile_isLetter hrun hstop
            cases hfront
            cases hsame
            cases List.append_cancel_left htail
            rfl
      · rw [h]
        exact ⟨.inr ⟨hne, hw, hbefore, hrest⟩, rfl, rfl⟩

end LexicalIn

/-- Pieces in the order in which they stand, none begun before the one in
front of it is over. -/
def InOrder (pieces : List Piece) : Prop :=
  pieces.Pairwise fun x y => x.before ++ x.letters <+: y.before

/-- A piece stands in front of those that begin behind it. -/
theorem InOrder.cons {x : Piece} {pieces : List Piece} {cs : List Char}
    (h : InOrder pieces)
    (hpieces : ∀ y, y ∈ pieces ↔ LexicalIn (x.before ++ x.letters) cs y) :
    InOrder (x :: pieces) := by
  refine List.pairwise_cons.2 ⟨fun y hy => ?_, h⟩
  obtain ⟨-, u, hu, -⟩ := (hpieces y).1 hy
  rw [hu]
  exact List.prefix_append _ u

/-- The last part of a text is split into the lexical pieces that begin in
it, unless it begins inside a word. -/
theorem scan_eq_pieces (before cs : List Char)
    (h : Lexeme.goesOn before.reverse = false
      ∨ Lexeme.goesOn cs = false) :
    ∃ pieces : List Piece, (∀ x, x ∈ pieces ↔ LexicalIn before cs x)
      ∧ InOrder pieces
      ∧ (Lexeme.scan (Place.start.after before) cs).map Lexeme.token
        = pieces.map Piece.token := by
  induction cs using text_induction generalizing before with
  | nil =>
      refine ⟨[], fun x => ?_, List.Pairwise.nil, rfl⟩
      refine ⟨fun hx => absurd hx List.not_mem_nil, fun hx => ?_⟩
      obtain ⟨hx, u, -, hcs⟩ := hx
      have hnil := (List.append_eq_nil_iff.1 hcs.symm).2
      exact absurd (List.append_eq_nil_iff.1 hnil).1 hx.ne_nil
  | blank c cs hc ih =>
      have hstop : Lexeme.goesOn (before ++ [c]).reverse = false := by
        rw [List.reverse_append]
        show isLetter c = false
        rw [isLetter, hc]
        rfl
      obtain ⟨pieces, hpieces, horder, hmap⟩ := ih _ (.inl hstop)
      refine ⟨pieces, fun x => ?_, horder, ?_⟩
      · rw [hpieces, LexicalIn.blank_iff hc]
      · rw [Lexeme.scan_blank hc, ← hmap, Place.after_append]
        rfl
  | mark c cs hb hm ih =>
      have hstop : Lexeme.goesOn (before ++ [c]).reverse = false := by
        rw [List.reverse_append]
        show isLetter c = false
        exact isLetter_mark hm
      obtain ⟨pieces, hpieces, horder, hmap⟩ := ih _ (.inl hstop)
      refine ⟨⟨before, [c], cs⟩ :: pieces, fun x => ?_,
        horder.cons hpieces, ?_⟩
      · rw [List.mem_cons, hpieces, LexicalIn.mark_iff hm]
      · rw [Lexeme.scan_mark hb hm, List.map_cons, List.map_cons, ← hmap,
          Piece.token_eq before [c] cs, Place.after_append]
        rfl
  | word w rest hne hw hrest ih =>
      have hfront : Lexeme.goesOn before.reverse = false := by
        refine h.resolve_right fun hgo => ?_
        cases w with
        | nil => exact hne rfl
        | cons c w =>
            have hc := hw c (List.mem_cons_self ..)
            exact absurd (hc.symm.trans hgo) (by decide)
      obtain ⟨pieces, hpieces, horder, hmap⟩ := ih _ (.inr hrest)
      refine ⟨⟨before, w, rest⟩ :: pieces, fun x => ?_,
        horder.cons hpieces, ?_⟩
      · rw [List.mem_cons, hpieces,
          LexicalIn.word_iff hne hw hrest hfront]
      · rw [Lexeme.scan_word hne hw hrest, List.map_cons, List.map_cons,
          ← hmap, Piece.token_eq before w rest, Place.after_append]

/-- The letters of all lexemes are the characters that are not white
space. -/
theorem flatten_letters_scan (p : Place) (cs : List Char) :
    ((Lexeme.scan p cs).map Lexeme.letters).flatten
      = cs.filter fun c => !isBlank c := by
  induction cs using text_induction generalizing p with
  | nil => rfl
  | blank c cs hc ih =>
      rw [Lexeme.scan_blank hc, ih, List.filter_cons_of_neg (by simp [hc])]
  | mark c cs hb hm ih =>
      rw [Lexeme.scan_mark hb hm, List.map_cons, List.flatten_cons, ih,
        List.filter_cons_of_pos (by simp [hb])]
      rfl
  | word w rest hne hw hrest ih =>
      have hall : w.filter (fun c => !isBlank c) = w := by
        refine List.filter_eq_self.2 fun c hc => ?_
        have hletter := hw c hc
        rw [isLetter, Bool.and_eq_true] at hletter
        exact hletter.1
      rw [Lexeme.scan_word hne hw hrest, List.map_cons, List.flatten_cons,
        ih, List.filter_append, hall]

-- ========================================================== the tokens

/-- The tokens of a text are its lexical pieces, each once, in the order in
which they stand, with the places that they stand at; so they hold every
character but white space. -/
theorem tokenize_eq_pieces (text : String) :
    (∃ pieces : List Piece,
      (∀ x, x ∈ pieces ↔ x.text = text.toList ∧ x.Lexical)
      ∧ InOrder pieces ∧ tokenize text = pieces.map Piece.token)
    ∧ String.join ((tokenize text).map Token.value)
      = String.ofList (text.toList.filter fun c => !isBlank c) := by
  constructor
  · obtain ⟨pieces, hpieces, horder, hmap⟩ :=
      scan_eq_pieces [] text.toList (.inl rfl)
    refine ⟨pieces, fun x => ?_, horder, hmap⟩
    rw [hpieces, LexicalIn, and_comm]
    refine and_congr_left fun _ => ⟨fun h => ?_, fun h => ?_⟩
    · obtain ⟨u, hu, hcs⟩ := h
      rw [hcs, Piece.text, hu, List.nil_append]
    · exact ⟨x.before, rfl, h.symm⟩
  · rw [← String.toList_inj, String.toList_join, String.toList_ofList,
      ← flatten_letters_scan Place.start, tokenize, List.map_map,
      List.flatMap_def, List.map_map]
    refine congrArg List.flatten (List.map_congr_left fun l _ => ?_)
    exact String.toList_ofList

end RobotLang
