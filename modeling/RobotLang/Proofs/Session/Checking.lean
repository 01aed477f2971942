/-
Checking several files.

The names of the files are given as arguments or asked for, and the files
are shown one after the other. Showing a file leaves the others as they are
(`Proofs/Session/Keeping`), so it does not matter to a file which ones have
been shown before it. What is printed falls into parts, one a name, and a
part depends on the name and on what it leads to and on nothing else.

The two ways differ in what stands around a file, and in how they come to an
end. They do not differ in what is shown of it (`shown`). Only the arguments
are checked to lead anywhere first.
-/
import RobotLang.Proofs.FileOutcomes
import RobotLang.Proofs.Session.Keeping

namespace RobotLang

open Text

-- =============================================================== looking

namespace FileTree

variable {t t' : FileTree} {name : String}

theorem step_ne_isFolder {trail : Trail} {c : String} :
    t.step trail c ≠ .error .isFolder := by
  intro h
  unfold step at h
  repeat' split at h
  all_goals cases h

/-- No folder is in the way of a walk. -/
theorem walk_ne_isFolder (trail : Trail) (components : List String) :
    t.walk trail components ≠ .error .isFolder := by
  induction components generalizing trail with
  | nil => exact fun h => by cases h
  | cons c components ih =>
      intro h
      have hcons : t.walk trail (c :: components)
          = t.step trail c >>= fun trail => t.walk trail components :=
        List.foldlM_cons
      rw [hcons] at h
      cases hstep : t.step trail c with
      | ok trail' =>
          rw [hstep] at h
          exact ih trail' h
      | error d =>
          rw [hstep] at h
          cases h
          exact step_ne_isFolder hstep

theorem locate_ne_isFolder : t.locate name ≠ .error .isFolder := by
  unfold locate
  split
  · exact fun h => by cases h
  split
  · exact fun h => by cases h
  exact walk_ne_isFolder _ _

/-- Whether a name leads to anything can be told from the attempt to read
it. -/
theorem holds_eq_true_iff :
    t.holds name = true ↔ (∃ bytes, t.content name = .ok bytes)
      ∨ t.content name = .error (.denied .isFolder name) := by
  unfold holds content
  by_cases hnul : hasNul name = true
  · simp [hnul]
  rw [if_neg hnul]
  have hfolder : t.locate name ≠ .error .isFolder := locate_ne_isFolder
  cases hlocate : t.locate name with
  | error d =>
      rw [hlocate] at hfolder
      simp_all [Except.isOk, Except.toBool]
  | ok trail =>
      dsimp only
      cases t.reached trail <;> simp [hnul, Except.isOk, Except.toBool]

theorem holds_congr (h : t.content name = t'.content name) :
    t.holds name = t'.holds name := by
  rw [Bool.eq_iff_iff, holds_eq_true_iff, holds_eq_true_iff, h]

end FileTree

/-- What is found under a name depends on nothing but what it leads to. -/
theorem Source.found_congr {files files' : FileTree} {name : String}
    (encoding : String) (h : files.content name = files'.content name) :
    found files encoding name = found files' encoding name := by
  unfold found text
  rw [h]

-- ================================================================= parts

namespace Session

variable {files files' : FileTree} {s : Session} {e name line : String}

/-- What is printed when a file is shown. -/
def shown (files : FileTree) (e name : String) : String :=
  presented (Source.found files e name)

/-- What is printed of a name among the arguments. -/
def report (files : FileTree) (e name : String) : String :=
  if files.holds name then
    "Parsing '" ++ name ++ "'" ++ "\n" ++ shown files e name
  else "Can't find file '" ++ name ++ "'" ++ "\n"

def prompt : String := "Enter the program file to load (empty to quit): "

/-- What is printed around a line that answers with a name. -/
def exchange (files : FileTree) (e line : String) : String :=
  prompt ++ shown files e (strip line)

/-- Parsing the named file raises no exception. -/
def Untroubled (files : FileTree) (e name : String) : Prop :=
  ∃ result, (Source.parseFile files e name).2 = .ok result

theorem shown_congr (h : files.content name = files'.content name) :
    shown files e name = shown files' e name := by
  unfold shown
  rw [Source.found_congr e h]

theorem report_congr (h : files.content name = files'.content name) :
    report files e name = report files' e name := by
  unfold report
  rw [FileTree.holds_congr h, shown_congr h]

-- =============================================================== showing

namespace Prints

theorem shown (hs : AtConsole files s) (h : Untroubled files e name) :
    Prints (Session.present e name) s (Session.shown files e name)
      (.ok ()) := by
  obtain ⟨result, hresult⟩ := h
  rw [Source.parseFile_eq] at hresult
  dsimp only at hresult
  have hpresent := Prints.present e name s
  rw [hs.1, hresult] at hpresent
  exact hpresent

theorem report (hs : AtConsole files s)
    (h : files.holds name = true → Untroubled files e name) :
    Prints (Session.showArgument e name) s (Session.report files e name)
      (.ok ()) := by
  unfold Session.showArgument
  refine .bind_get ?_
  rw [hs.1]
  unfold Session.report
  by_cases hholds : files.holds name = true
  · rw [if_pos hholds, if_pos hholds]
    exact (Prints.print _).onward (.print _) hs fun s' hs' =>
      .shown hs' (h hholds)
  · rw [if_neg hholds, if_neg hholds]
    exact .print _

/-- The arguments print their parts one after the other. -/
theorem reports {names : List String} (hs : AtConsole files s)
    (h : ∀ name ∈ names, files.holds name = true → Untroubled files e name) :
    Prints (names.forM (Session.showArgument e)) s
      (String.join (names.map (Session.report files e))) (.ok ()) := by
  induction names generalizing s with
  | nil => exact .pure ()
  | cons name names ih =>
      rw [List.map_cons, String.join_cons]
      -- the next name finds the same files
      exact (Prints.report hs (h name (List.mem_cons_self ..))).onward
        (.showArgument e name) hs fun s' hs' =>
          ih hs' fun n hn => h n (List.mem_cons_of_mem _ hn)

theorem ask : Prints Session.ask s prompt (.ok ()) := ⟨_, rfl, rfl⟩

/-- A blank line is the end of the dialogue. -/
theorem dialogue_blank (hline : strip line = "") (lines : List String) :
    Prints (Session.dialogue e (line :: lines)) s prompt (.ok ()) := by
  have hanswer (s' : Session) :
      Prints (Session.answer e line) s' "" (.ok false) := by
    unfold Session.answer
    dsimp only
    rw [if_pos hline]
    exact .pure false
  rw [← String.append_empty (s := prompt)]
  exact Prints.ask.bind fun s' => (hanswer s').behind fun _ => .pure ()

/-- Without a blank line it is cut off. -/
theorem dialogue_nil :
    Prints (Session.dialogue e []) s prompt (.error .noInput) := by
  rw [← String.append_empty (s := prompt)]
  exact Prints.ask.bind fun _ => .throw _

/-- The names up to there are shown. -/
theorem dialogue_append {front rest : List String} {u : String}
    {r : Except Trouble Unit} (hs : AtConsole files s)
    (hfront : ∀ line ∈ front, strip line ≠ ""
      ∧ Untroubled files e (strip line))
    (hrest : ∀ s', AtConsole files s' →
      Prints (Session.dialogue e rest) s' u r) :
    Prints (Session.dialogue e (front ++ rest)) s
      (String.join (front.map (exchange files e)) ++ u) r := by
  induction front generalizing s with
  | nil =>
      rw [List.map_nil, String.join_nil, String.empty_append]
      exact hrest s hs
  | cons line front ih =>
      obtain ⟨hline, huntroubled⟩ := hfront line (List.mem_cons_self ..)
      have hanswer (s' : Session) (hs' : AtConsole files s') :
          Prints (Session.answer e line) s'
            (Session.shown files e (strip line)) (.ok true) := by
        unfold Session.answer
        dsimp only
        rw [if_neg hline]
        exact (Prints.shown hs' huntroubled).instead true
      rw [List.map_cons, String.join_cons, exchange, String.append_assoc,
        String.append_assoc]
      exact Prints.ask.onward (.write _) hs fun s' hs' =>
        (hanswer s' hs').onward (.answer e line) hs' fun s'' hs'' =>
          ih hs'' fun l hl => hfront l (List.mem_cons_of_mem _ hl)

end Prints

-- ================================================================= lines

theorem lines_of_notMem {rest : String} (h : '\n' ∉ rest.toList) :
    lines rest = if rest = "" then [] else [rest] := by
  unfold lines
  rw [List.splitOn_eq_singleton h, List.map_singleton, String.ofList_toList]
  by_cases hrest : rest = "" <;> simp [hrest]

theorem lines_cons {line : String} (h : '\n' ∉ line.toList)
    (input : String) :
    lines (line ++ "\n" ++ input) = line :: lines input := by
  have hsplit : (line ++ "\n" ++ input).toList.splitOn '\n'
      = line.toList :: input.toList.splitOn '\n' := by
    rw [String.toList_append, String.toList_append, List.append_assoc]
    exact List.splitOn_append_cons_self_of_not_mem h input.toList
  unfold lines
  rw [hsplit, List.map_cons, String.ofList_toList]
  -- the last piece is one of the input
  obtain ⟨piece, pieces, hpieces⟩ : ∃ piece pieces,
      (input.toList.splitOn '\n').map String.ofList = piece :: pieces :=
    List.exists_cons_of_ne_nil (by simp)
  rw [hpieces]
  dsimp only
  rw [List.getLast?_cons_cons]
  split <;> rfl

/-- The lines of an input end with line feeds, except that there may be one
behind the last of them, which is a line unless it is empty. -/
theorem lines_spec (input : String) :
    ∃ ended rest, (∀ line ∈ ended, '\n' ∉ line.toList) ∧ '\n' ∉ rest.toList
      ∧ input = String.join (ended.map (· ++ "\n")) ++ rest
      ∧ lines input = ended ++ if rest = "" then [] else [rest] := by
  -- on the length, since a whole line is taken away
  induction hn : input.toList.length using Nat.strongRecOn
    generalizing input with
  | _ n ih =>
  by_cases hmem : '\n' ∈ input.toList
  · obtain ⟨front, back, hinput, hfront⟩ := List.eq_append_cons_of_mem hmem
    have hlength : (String.ofList back).toList.length < n := by
      rw [String.toList_ofList, ← hn, hinput, List.length_append,
        List.length_cons]
      omega
    obtain ⟨ended, rest, hended, hrest, hback, hlines⟩ := ih _ hlength _ rfl
    have hcons : input
        = String.ofList front ++ "\n" ++ String.ofList back := by
      rw [← String.toList_inj, hinput]
      simp
    have hline : '\n' ∉ (String.ofList front).toList := by
      rwa [String.toList_ofList]
    refine ⟨String.ofList front :: ended, rest, ?_, hrest, ?_, ?_⟩
    · intro line hmem
      rcases List.mem_cons.1 hmem with rfl | hmem
      · exact hline
      · exact hended line hmem
    · rw [List.map_cons, String.join_cons, String.append_assoc, ← hback]
      exact hcons
    · rw [hcons, lines_cons hline, hlines, List.cons_append]
  · refine ⟨[], input, fun _ h => absurd h List.not_mem_nil, hmem, ?_, ?_⟩
    · rw [List.map_nil, String.join_nil, String.empty_append]
    · rw [lines_of_notMem hmem, List.nil_append]

-- ============================================================ setting up

/-- Without a log file only the console is set up. -/
theorem setUp_of_level {given : LevelGiven} {level : Level}
    (h : given.level = .ok level) (s : Session) :
    setUp given none s
      = .ok () { s with logging := ⟨level, [⟨.console, level⟩]⟩ } := by
  unfold setUp
  rw [h]
  rfl

theorem setUp_of_fault {given : LevelGiven} {fault : LevelFault}
    (h : given.level = .error fault) (s : Session) (logFile : Option String) :
    setUp given logFile s = .error (.level fault) s := by
  unfold setUp
  rw [h]
  rfl

-- =============================================================== checking

/-- What is done between setting up and saying that all is done. -/
def visit (e : String) (names : List String) (input : String) : Step Unit :=
  if names.isEmpty then dialogue e (lines input)
  else names.forM (showArgument e)

theorem check_eq (settings : Settings) (names : List String)
    (input : String) :
    check settings names input
      = (setUp (.name settings.logLevel) settings.logFile >>= fun _ =>
          visit settings.sourceEncoding names input >>= fun _ =>
            print "Done") := by
  unfold check visit
  cases names.isEmpty <;> rfl

namespace Prints

variable {settings : Settings} {names : List String} {input u : String}
  {r : Except Trouble Unit}

/-- Behind the setting up, which prints nothing, checking goes on with the
files as they were. -/
theorem check {level : Level} (hfile : settings.logFile = none)
    (hlevel : (LevelGiven.name settings.logLevel).level = .ok level)
    (h : ∀ s', AtConsole s.files s' →
      Prints (visit settings.sourceEncoding names input >>= fun _ =>
        Session.print "Done") s' u r) :
    Prints (Session.check settings names input) s u r := by
  have hsetUp := setUp_of_level hlevel s
  have hprints : Prints (setUp (.name settings.logLevel) none) s ""
      (.ok ()) :=
    ⟨{ s with logging := ⟨level, [⟨.console, level⟩]⟩ },
      (String.append_empty).symm, hsetUp⟩
  rw [check_eq, hfile, ← String.empty_append (s := u)]
  refine hprints.bind_left (h _ ?_)
  rw [hsetUp]
  exact ⟨rfl, fun sink hsink => by rw [List.mem_singleton.1 hsink]⟩

/-- Without a level nothing is checked. -/
theorem check_of_fault {fault : LevelFault}
    (hlevel : (LevelGiven.name settings.logLevel).level = .error fault) :
    Prints (Session.check settings names input) s ""
      (.error (.level fault)) := by
  have hsetUp : Prints (setUp (.name settings.logLevel) settings.logFile) s
      "" (.error (.level fault)) :=
    ⟨s, (String.append_empty).symm, setUp_of_fault hlevel s _⟩
  rw [check_eq]
  exact hsetUp.bind_of_error

theorem visit_names (hnames : names ≠ []) (hs : AtConsole files s)
    (h : ∀ name ∈ names, files.holds name = true → Untroubled files e name) :
    Prints (visit e names input) s
      (String.join (names.map (Session.report files e))) (.ok ()) := by
  unfold visit
  rw [if_neg (by simpa using hnames)]
  exact Prints.reports hs h

end Prints

/-- Files are checked apart from each other, and in both ways alike. What is
printed of a name among the arguments, and what is shown of a file, depend
on what the name leads to and on nothing else. Arguments have their parts
printed in order. Of the lines of an input those in front of the first blank
one are shown as the files they name, each behind a prompt, and one more
prompt asks for the blank line, or for input that is not there. It is done
if the arguments or the blank line have been reached, and otherwise ends in
want of input. All this is for files that parsing raises no exception on,
and for a level that there is; else nothing is printed. -/
theorem check_files_apart (settings : Settings) (files : FileTree)
    (hfile : settings.logFile = none) :
    let e := settings.sourceEncoding
    let level := (LevelGiven.name settings.logLevel).level
    let s := fresh files
    (∀ files' name, files.content name = files'.content name →
      report files e name = report files' e name
      ∧ shown files e name = shown files' e name)
    ∧ (∀ name, Untroubled files e name →
      Prints (present e name) s (shown files e name) (.ok ()))
    ∧ (∀ input, ∃ ended rest, (∀ line ∈ ended, '\n' ∉ line.toList)
      ∧ '\n' ∉ rest.toList
      ∧ input = String.join (ended.map (· ++ "\n")) ++ rest
      ∧ lines input = ended ++ if rest = "" then [] else [rest])
    ∧ (∀ fault, level = .error fault → ∀ names input,
      Prints (check settings names input) s "" (.error (.level fault)))
    ∧ ((∃ l, level = .ok l) →
      (∀ names input, names ≠ [] →
        (∀ name ∈ names, files.holds name = true → Untroubled files e name) →
        Prints (check settings names input) s
          (String.join (names.map (report files e)) ++ "Done\n") (.ok ()))
      ∧ (∀ input front line back, lines input = front ++ line :: back →
        (∀ l ∈ front, strip l ≠ ""
          ∧ Untroubled files e (strip l)) →
        strip line = "" →
        Prints (check settings [] input) s
          (String.join (front.map (exchange files e)) ++ prompt ++ "Done\n")
          (.ok ()))
      ∧ ∀ input, (∀ l ∈ lines input, strip l ≠ ""
          ∧ Untroubled files e (strip l)) →
        Prints (check settings [] input) s
          (String.join ((lines input).map (exchange files e)) ++ prompt)
          (.error .noInput)) := by
  intro e level s
  have hfresh : AtConsole files s :=
    ⟨rfl, fun _ hsink => absurd hsink List.not_mem_nil⟩
  refine ⟨fun files' name h => ⟨report_congr h, shown_congr h⟩,
    fun name h => .shown hfresh h, lines_spec,
    fun fault hlevel names input => .check_of_fault hlevel, ?_⟩
  rintro ⟨l, hlevel⟩
  refine ⟨?_, ?_, ?_⟩
  · intro names input hnames h
    refine .check hfile hlevel fun s' hs' => ?_
    exact (Prints.visit_names hnames hs' h).bind fun _ => .print "Done"
  · intro input front line back hinput hfront hline
    refine .check hfile hlevel fun s' hs' => ?_
    have hdialogue := Prints.dialogue_append hs' hfront fun _ _ =>
      .dialogue_blank hline back
    rw [← hinput] at hdialogue
    exact hdialogue.bind fun _ => .print "Done"
  · intro input h
    refine .check hfile hlevel fun s' hs' => ?_
    have hdialogue := Prints.dialogue_append hs' h fun _ _ => .dialogue_nil
    rw [List.append_nil] at hdialogue
    exact hdialogue.bind_of_error

/-- A file that lacks a semicolon and one that is not there: as arguments,
typed in before a line with a space, and typed in before the input ends. -/
theorem check_files_apart_shelf :
    let shelf : FileTree := ⟨[], .folder [("bad", .file (utf8 "move"))]⟩
    let showing := "Parsing completed\n=================\n"
    Settings.standard.logFile = none
    ∧ Prints (check Settings.standard ["bad", "gone"] "") (fresh shelf)
      ("Parsing 'bad'\n" ++ showing ++ "Can't find file 'gone'\nDone\n")
      (.ok ())
    ∧ Prints (check Settings.standard [] " bad\n \nmore") (fresh shelf)
      (prompt ++ showing ++ prompt ++ "Done\n") (.ok ())
    ∧ Prints (check Settings.standard [] "bad\nbad ") (fresh shelf)
      (prompt ++ showing ++ prompt ++ showing ++ prompt)
      (.error .noInput) := by
  intro shelf showing
  have hcontains : Source.Contains shelf .utf8 "bad" "move" :=
    ⟨utf8 "move", "move".toList, rfl, rfl, by decide +kernel⟩
  have hrejected : Program.ofText "move"
      = .error (.rejected ⟨.noSemicolon, [], none, none⟩) := rfl
  have hfound := Source.IsFound.malformed hcontains hrejected
  have hbad : Untroubled shelf "utf-8" "bad" :=
    ⟨none, congrArg Prod.snd hfound.parseFile_eq⟩
  have hshown : Session.shown shelf "utf-8" "bad" = showing :=
    congrArg presented hfound.found_eq
  have hlevel : ∃ l, (LevelGiven.name Settings.standard.logLevel).level
      = .ok l := ⟨Level.info, by decide +kernel⟩
  obtain ⟨-, -, -, -, hchecked⟩ :=
    check_files_apart Settings.standard shelf rfl
  have hencoding : Settings.standard.sourceEncoding = "utf-8" := rfl
  obtain ⟨hnames, hblank, hcut⟩ := hchecked hlevel
  rw [hencoding] at hnames hblank hcut
  have hthere : shelf.holds "bad" = true := rfl
  have hgone : shelf.holds "gone" = false := rfl
  have hreport : report shelf "utf-8" "bad"
      = "Parsing 'bad'\n" ++ showing := by
    rw [report, if_pos hthere, hshown]
    decide +kernel
  have hmissing : report shelf "utf-8" "gone"
      = "Can't find file 'gone'\n" := by
    rw [report, hgone, if_neg (by decide)]
    decide +kernel
  have hexchange {line : String} (hline : strip line = "bad") :
      exchange shelf "utf-8" line = prompt ++ showing := by
    rw [exchange, hline, hshown]
  have hanswer {line : String} (hline : strip line = "bad") :
      strip line ≠ "" ∧ Untroubled shelf "utf-8" (strip line) := by
    rw [hline]
    exact ⟨by decide, hbad⟩
  have hspace : strip " bad" = "bad" := by decide +kernel
  have hplain : strip "bad" = "bad" := by decide +kernel
  have hbehind : strip "bad " = "bad" := by decide +kernel
  refine ⟨rfl, ?_, ?_, ?_⟩
  · have hprints := hnames ["bad", "gone"] "" (List.cons_ne_nil _ _) (by
      intro name hname hholds
      rcases List.mem_pair.1 hname with rfl | rfl
      · exact hbad
      · rw [hgone] at hholds
        cases hholds)
    rw [List.map_cons, List.map_cons, hreport, hmissing] at hprints
    convert hprints using 1
    decide +kernel
  · have hprints := hblank " bad\n \nmore" [" bad"] " " ["more"]
      (by decide +kernel) (by
        intro l hl
        rw [List.mem_singleton.1 hl]
        exact hanswer hspace)
      (by decide +kernel)
    rw [List.map_cons, hexchange hspace] at hprints
    convert hprints using 1
    decide +kernel
  · have hlines : lines "bad\nbad " = ["bad", "bad "] := by decide +kernel
    have hprints := hcut "bad\nbad " (by
      rw [hlines]
      intro l hl
      rcases List.mem_pair.1 hl with rfl | rfl
      · exact hanswer hplain
      · exact hanswer hbehind)
    rw [hlines, List.map_cons, List.map_cons, hexchange hplain,
      hexchange hbehind] at hprints
    convert hprints using 1
    decide +kernel

end Session

end RobotLang
