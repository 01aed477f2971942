/-
The tokens of a text, line by line.

A line feed is white space and begins a line at its first column. So a text
is split line by line, each line where it stands in the text: the tokens on
a line are those of the line by itself, with its number for theirs
(`tokenize_lines`). What other lines hold does not matter.

The lexemes of all the lines are put together line after line
(`scanLines`), with the number of the first line as a parameter, because
the induction over the lines takes the first one away.
-/
import RobotLang.Proofs.Token.Seam

namespace RobotLang

open Text

-- ============================================================ one line

/-- A place in a line of that number. -/
def Place.onLine (n : Int) (p : Place) : Place := ⟨n, p.column⟩

/-- A lexeme in a line of that number. -/
def Lexeme.onLine (n : Int) (l : Lexeme) : Lexeme :=
  ⟨l.letters, l.place.onLine n⟩

/-- A token in a line of that number. -/
def Token.onLine (n : Int) (t : Token) : Token :=
  ⟨t.value, t.place.onLine n⟩

namespace Lexeme

/-- The lexemes of a line are the same on any other line, but for its
number. -/
theorem scan_onLine (n : Int) (p : Place) {cs : List Char}
    (h : '\n' ∉ cs) :
    scan (p.onLine n) cs = (scan p cs).map (onLine n) := by
  induction cs generalizing p with
  | nil => rfl
  | cons c cs ih =>
      rw [List.mem_cons, not_or] at h
      obtain ⟨hc, hcs⟩ := h
      have hnext : (p.onLine n).next c = (p.next c).onLine n := by
        simp [Place.next, Place.onLine, Ne.symm hc]
      rw [scan, scan, hnext, ih _ hcs]
      by_cases hb : isBlank c = true
      · rw [if_pos hb, if_pos hb]
      · rw [if_neg hb, if_neg hb]
        split
        · rfl
        · cases scan (p.next c) cs <;> rfl

/-- All lexemes of a line stand on it. -/
theorem line_of_mem_scan {n column : Int} {cs : List Char} (h : '\n' ∉ cs)
    {l : Lexeme} (hl : l ∈ scan ⟨n, column⟩ cs) : l.place.line = n := by
  have hsame := scan_onLine n ⟨n, column⟩ h
  have hplace : Place.onLine n ⟨n, column⟩ = ⟨n, column⟩ := rfl
  rw [hplace] at hsame
  rw [hsame] at hl
  obtain ⟨l', -, rfl⟩ := List.mem_map.1 hl
  rfl

-- ======================================================== several lines

/-- A line feed begins a line at its first column. -/
theorem scan_append_newline (n : Int) {column : Int} {cs : List Char}
    (h : '\n' ∉ cs) (ds : List Char) :
    scan ⟨n, column⟩ (cs ++ '\n' :: ds)
      = scan ⟨n, column⟩ cs ++ scan ⟨n + 1, 0⟩ ds := by
  have hline : (Place.after ⟨n, column⟩ cs).line = n := by
    induction cs generalizing column with
    | nil => rfl
    | cons c cs ih =>
        rw [List.mem_cons, not_or] at h
        show (Place.after (Place.next ⟨n, column⟩ c) cs).line = n
        rw [Place.next, if_neg (Ne.symm h.1)]
        exact ih h.2
  have hnext : (Place.after ⟨n, column⟩ cs).next '\n' = ⟨n + 1, 0⟩ := by
    rw [Place.next, if_pos rfl, hline]
  rw [scan_append _ _ _ (.inr rfl), scan_blank rfl, hnext]

/-- The lexemes of lines, of which the first one has that number. -/
def scanLines (n : Int) : List (List Char) → List Lexeme
  | [] => []
  | line :: lines => scan ⟨n, 0⟩ line ++ scanLines (n + 1) lines

/-- The lexemes of a text are those of its lines. -/
theorem scan_lines (n : Int) {lines : List (List Char)}
    (h : ∀ line ∈ lines, '\n' ∉ line) :
    scan ⟨n, 0⟩ (['\n'].intercalate lines) = scanLines n lines := by
  induction lines generalizing n with
  | nil => rfl
  | cons line lines ih =>
      have hline := h line (List.mem_cons_self ..)
      have hlines := ih (n + 1) fun l hl => h l (List.mem_cons_of_mem _ hl)
      cases lines with
      | nil => simp [scanLines]
      | cons next lines =>
          rw [List.intercalate_cons_cons, List.append_assoc,
            List.singleton_append, scan_append_newline n hline, hlines,
            ← scanLines]

theorem scanLines_append (n : Int) (front back : List (List Char)) :
    scanLines n (front ++ back)
      = scanLines n front ++ scanLines (n + front.length) back := by
  induction front generalizing n with
  | nil => simp [scanLines]
  | cons line front ih =>
      have hnumber : n + 1 + (front.length : Int)
          = n + ((line :: front).length : Int) := by
        rw [List.length_cons]
        omega
      rw [List.cons_append, scanLines, scanLines, ih, hnumber,
        List.append_assoc]

/-- No lexeme stands above the first line or below the last one. -/
theorem line_of_mem_scanLines {n : Int} {lines : List (List Char)}
    (h : ∀ line ∈ lines, '\n' ∉ line) {l : Lexeme}
    (hl : l ∈ scanLines n lines) :
    n ≤ l.place.line ∧ l.place.line < n + lines.length := by
  induction lines generalizing n with
  | nil => cases hl
  | cons line lines ih =>
      rw [List.length_cons]
      rcases List.mem_append.1 hl with hl | hl
      · have hline := line_of_mem_scan (h line (List.mem_cons_self ..)) hl
        omega
      · have hlater := ih (fun k hk => h k (List.mem_cons_of_mem _ hk)) hl
        omega

/-- The lexemes on a line are those of the line. -/
theorem filter_scanLines {n : Int} {lines : List (List Char)}
    (h : ∀ line ∈ lines, '\n' ∉ line) {i : Nat} {line : List Char}
    (hi : lines[i]? = some line) :
    (scanLines n lines).filter (fun l => l.place.line = n + i)
      = scan ⟨n + i, 0⟩ line := by
  obtain ⟨hlt, hget⟩ := List.getElem?_eq_some_iff.1 hi
  have hsplit : lines
      = lines.take i ++ ([line] ++ lines.drop (i + 1)) := by
    rw [← hget, List.singleton_append, ← List.drop_eq_getElem_cons hlt,
      List.take_append_drop]
  have hlength : (lines.take i).length = i := by
    rw [List.length_take]
    omega
  have hfront : ∀ k ∈ lines.take i, '\n' ∉ k := fun k hk =>
    h k (List.mem_of_mem_take hk)
  have hback : ∀ k ∈ lines.drop (i + 1), '\n' ∉ k := fun k hk =>
    h k (List.mem_of_mem_drop hk)
  have hmem : '\n' ∉ line := h line (List.mem_of_getElem? hi)
  rw [hsplit, scanLines_append, scanLines_append, List.filter_append,
    List.filter_append, hlength]
  -- the lines in front have smaller numbers, those behind greater ones
  have habove : (scanLines n (lines.take i)).filter
      (fun l => l.place.line = n + i) = [] := by
    rw [List.filter_eq_nil_iff]
    intro l hl
    have hline := line_of_mem_scanLines hfront hl
    rw [hlength] at hline
    simp only [decide_eq_true_eq]
    omega
  have hbelow : (scanLines (n + i + ([line] : List (List Char)).length)
      (lines.drop (i + 1))).filter (fun l => l.place.line = n + i) = [] := by
    rw [List.filter_eq_nil_iff]
    intro l hl
    have hline := line_of_mem_scanLines hback hl
    rw [List.length_singleton] at hline
    simp only [decide_eq_true_eq]
    omega
  have hhere : (scanLines (n + i) [line]).filter
      (fun l => l.place.line = n + i) = scan ⟨n + i, 0⟩ line := by
    rw [scanLines, scanLines, List.append_nil, List.filter_eq_self]
    intro l hl
    simp [line_of_mem_scan hmem hl]
  rw [habove, hbelow, hhere, List.nil_append, List.append_nil]

end Lexeme

-- ============================================================ the tokens

/-- The tokens on a line of a text are those of the line by itself, but for
its number. -/
theorem tokenize_lines {lines : List (List Char)}
    (h : ∀ line ∈ lines, '\n' ∉ line) {i : Nat} {line : List Char}
    (hi : lines[i]? = some line) :
    (tokenize (String.ofList (['\n'].intercalate lines))).filter
        (fun t => t.place.line = (i : Int) + 1)
      = (tokenize (String.ofList line)).map (Token.onLine (i + 1)) := by
  have hmem : '\n' ∉ line := h line (List.mem_of_getElem? hi)
  have hfilter := Lexeme.filter_scanLines (n := 1) h hi
  have hline : Lexeme.scan ⟨1 + (i : Int), 0⟩ line
      = (Lexeme.scan Place.start line).map (Lexeme.onLine (1 + i)) :=
    Lexeme.scan_onLine (1 + i) Place.start hmem
  rw [← Lexeme.scan_lines 1 h, hline] at hfilter
  have htokens := congrArg (List.map Lexeme.token) hfilter
  rw [Int.add_comm, tokenize, tokenize, String.toList_ofList,
    String.toList_ofList, List.filter_map, List.map_map]
  rw [List.map_map] at htokens
  exact htokens

end RobotLang
