/-
What becomes of log records when logging is set up again and again.

Setting up replaces all the sinks there were. So where records go depends
on the last call that had a level, whatever happened before it: it leaves the
console, and the file if it could open one (`setUp_configured`). Until the
next such call nothing changes that. A record adds its line to each of the
two and to nothing else (`log_adds`), and a call that is rejected because of
its level does nothing at all. By induction on what happens since that call
the console and the file have the lines of the records that reach the level,
in their order, behind what was there (`Configured.after`).

That a line goes to the file and to no other one is said in terms of the
bytes at every path. A file in the folders of which another one is made is
not changed by that.
-/
import RobotLang.Proofs.FileTree
import RobotLang.Proofs.Session.Checking

namespace RobotLang

open Text

/-- Logging at a level, to the console and to the file that is open, if one
is. -/
def Logging.configured (level : Level) (opened : Option Path) : Logging :=
  ⟨level, ⟨.console, level⟩ :: opened.toList.map fun p => ⟨.file p, level⟩⟩

theorem Logging.configured_inj {level level' : Level}
    {opened opened' : Option Path}
    (h : configured level opened = configured level' opened') :
    level = level' ∧ opened = opened' := by
  have hlevel : level = level' := congrArg Logging.level h
  have hsinks := congrArg Logging.sinks h
  refine ⟨hlevel, ?_⟩
  cases opened <;> cases opened' <;> simp_all [configured]

/-- Whether a record has a positive level, and not less than a given one. -/
def Record.reaches (level : Level) (r : Record) : Bool :=
  0 < r.level && level ≤ r.level

theorem Logging.outputs_configured (level : Level) (opened : Option Path)
    (r : Record) :
    (configured level opened).outputs r
      = if r.reaches level then
          (.console, r.line) :: opened.toList.map fun p => (.file p, r.line)
        else [] := by
  unfold outputs
  have hadmits : (configured level opened).admits r = r.reaches level := rfl
  rw [hadmits]
  cases hreaches : r.reaches level with
  | false => rfl
  | true =>
      unfold Record.reaches at hreaches
      have hlevel : level ≤ r.level := by
        simp only [Bool.and_eq_true, decide_eq_true_eq] at hreaches
        exact hreaches.2
      cases opened <;> simp [configured, hlevel]

theorem Text.utf8_append (s t : String) : utf8 (s ++ t) = utf8 s ++ utf8 t := by
  unfold utf8
  rw [String.toList_append, List.flatMap_append]

namespace Session

-- ================================================================ events

/-- What can happen to logging: a call to set it up, or a record. -/
inductive LogEvent
  | setUp (given : LevelGiven) (logFile : Option String)
  | record (r : Record)

namespace LogEvent

def step : LogEvent → Step Unit
  | setUp given logFile => Session.setUp given logFile
  | record r => Session.log r

/-- Whether it is a call with a level. -/
def configures : LogEvent → Bool
  | setUp given _ => given.level.isOk
  | record _ => false

def record? : LogEvent → Option Record
  | setUp _ _ => none
  | record r => some r

end LogEvent

/-- The session after what happens. A call that fails leaves what it has
done. -/
def after (s : Session) (events : List LogEvent) : Session :=
  events.foldl (fun s event => left (event.step s)) s

/-- The log file that a call opens: the one that it is given, unless it
fails. -/
def opens (given : LevelGiven) (logFile : Option String) (s : Session) :
    Option Path :=
  match setUp given logFile s with
  | .ok _ _ => (logFile.filter (· ≠ "")).map s.files.resolve
  | .error _ _ => none

/-- The record of a call that opens a log file. -/
def announcement (name : String) : Record :=
  ⟨"", .debug, "Logging to console and " ++ name⟩

/-- The records of a call itself. -/
def announced (given : LevelGiven) (logFile : Option String) (s : Session) :
    List Record :=
  (opens given logFile s).toList.map fun _ => announcement (logFile.getD "")

/-- The lines of the records that reach a level. -/
def written (level : Level) (records : List Record) : String :=
  String.join ((records.filter (·.reaches level)).map Record.line)

/-- The console has a text more, and so has the file that is open, if one is.
All the other files have what they had. -/
structure Adds (opened : Option Path) (text : String) (s s' : Session) :
    Prop where
  err : s'.err = s.err ++ text
  bytesAt : ∀ q, s'.files.bytesAt q
    = if opened = some q then some ((s.files.bytesAt q).getD [] ++ utf8 text)
      else s.files.bytesAt q

/-- Since a session has been set up at a level, with a file if one could be
opened, these records have been logged. -/
structure Configured (level : Level) (opened : Option Path)
    (records : List Record) (s s' : Session) : Prop where
  logging : s'.logging = .configured level opened
  working : s'.files.working = s.files.working
  adds : Adds opened (written level records) s s'

/-- The file that is open, if one is, is there. -/
def IsOpen (opened : Option Path) (s : Session) : Prop :=
  ∀ p, opened = some p → (s.files.bytesAt p).isSome

variable {s s' s'' : Session} {level : Level} {opened : Option Path}
  {given : LevelGiven} {logFile : Option String} {text more name : String}
  {records : List Record} {events later : List LogEvent} {p : Path}

-- ================================================================ adding

theorem written_append (level : Level) (records more : List Record) :
    written level (records ++ more)
      = written level records ++ written level more := by
  unfold written
  rw [List.filter_append, List.map_append, String.join_append]

theorem written_singleton (level : Level) (r : Record) :
    written level [r] = if r.reaches level then r.line else "" := by
  unfold written
  cases h : r.reaches level <;> simp [h]

namespace Adds

theorem trans (h : Adds opened text s s') (h' : Adds opened more s' s'') :
    Adds opened (text ++ more) s s'' := by
  constructor
  · rw [h'.err, h.err, String.append_assoc]
  · intro q
    rw [h'.bytesAt, h.bytesAt]
    split
    · rw [Option.getD_some, List.append_assoc, utf8_append]
    · rfl

/-- Where a text has been added there is a file. -/
theorem isOpen (h : Adds opened text s s') : IsOpen opened s' := by
  intro p hp
  rw [h.bytesAt, if_pos hp]
  rfl

theorem of_sameFiles (herr : s'.err = s.err)
    (hfiles : s.files.SameFiles s'.files) : Adds none "" s s' := by
  constructor
  · rw [herr, String.append_empty]
  · intro q
    rw [hfiles.2 q, if_neg (Option.some_ne_none q).symm]

/-- A text is added by delivering it to the console and to the file that is
open. -/
theorem deliver (hopen : IsOpen opened s) (text : String) :
    Adds opened text s
      (((.console, text) :: opened.toList.map fun p => (.file p, text)).foldl
        Session.deliver s) := by
  cases opened with
  | none => exact ⟨rfl, fun q => rfl⟩
  | some p =>
      obtain ⟨old, hold⟩ := Option.isSome_iff_exists.1 (hopen p rfl)
      refine ⟨rfl, fun q => ?_⟩
      show (s.files.append p (utf8 text)).bytesAt q = _
      rw [FileTree.bytesAt_append]
      by_cases hq : q = p
      · rw [if_pos hq, if_pos (congrArg some hq.symm), hq, hold]
        rfl
      · rw [if_neg hq, if_neg fun heq => hq (Option.some.inj heq).symm]

theorem nothing (hopen : IsOpen opened s) : Adds opened "" s s := by
  refine ⟨String.append_empty.symm, fun q => ?_⟩
  split
  · next hq =>
    obtain ⟨old, hold⟩ := Option.isSome_iff_exists.1 (hopen q hq)
    rw [hold, Option.getD_some]
    exact congrArg some (List.append_nil old).symm
  · rfl

end Adds

-- =============================================================== records

theorem log_eq (r : Record) (s : Session) :
    log r s = .ok () ((s.logging.outputs r).foldl deliver s) := rfl

theorem deliver_keeps (s : Session) (ds : List (Target × String)) :
    (ds.foldl deliver s).logging = s.logging
      ∧ (ds.foldl deliver s).files.working = s.files.working := by
  induction ds generalizing s with
  | nil => exact ⟨rfl, rfl⟩
  | cons d ds ih =>
      obtain ⟨hlogging, hworking⟩ := ih (s.deliver d)
      rw [List.foldl_cons, hlogging, hworking]
      obtain ⟨target, text⟩ := d
      cases target with
      | console => exact ⟨rfl, rfl⟩
      | file p => exact ⟨rfl, FileTree.append_working _ _ _⟩

/-- A record that reaches the level adds its line to the console and to the
file that is open, and another one adds nothing. -/
theorem log_adds (hlogging : s.logging = .configured level opened)
    (hopen : IsOpen opened s) (r : Record) :
    Adds opened (if r.reaches level then r.line else "") s
      (left (log r s)) := by
  rw [log_eq, left, hlogging, Logging.outputs_configured]
  split
  · exact .deliver hopen r.line
  · exact .nothing hopen

/-- A record after the others. -/
theorem Configured.log (h : Configured level opened records s s')
    (r : Record) :
    Configured level opened (records ++ [r]) s (left (log r s')) := by
  obtain ⟨hlogging, hworking⟩ := deliver_keeps s' (s'.logging.outputs r)
  refine ⟨hlogging.trans h.logging, hworking.trans h.working, ?_⟩
  rw [written_append, written_singleton]
  exact h.adds.trans (log_adds h.logging h.adds.isOpen r)

-- ============================================================ setting up

/-- Making the folder of a log file changes no file. -/
theorem makeLogFolder_keeps (name : String) (s : Session) :
    ∃ files, left (makeLogFolder name s) = { s with files }
      ∧ s.files.SameFiles files := by
  have hsame := s.files.sameFiles_makeFolders (PathName.folder name)
  simp only [makeLogFolder, FileTree.get_bind]
  split
  · rw [FileTree.get_bind]
    cases hmade : FileTree.makeFolders (PathName.folder name) s.files with
    | ok _ files =>
        rw [hmade] at hsame
        exact ⟨files, rfl, hsame⟩
    | error e files =>
        rw [hmade] at hsame
        exact ⟨files, rfl, hsame⟩
  · exact ⟨s.files, rfl, .refl _⟩

theorem bind_of_ok {α β : Type} {x : Step α} {a : α} (f : α → Step β)
    (h : x s = .ok a s') : (x >>= f) s = f a s' := by
  show EStateM.bind x f s = _
  unfold EStateM.bind
  rw [h]

theorem bind_of_error {α β : Type} {x : Step α} {e : Trouble}
    (f : α → Step β) (h : x s = .error e s') :
    (x >>= f) s = .error e s' := by
  show EStateM.bind x f s = _
  unfold EStateM.bind
  rw [h]

/-- A call whose log file cannot be opened leaves the level with the console
alone. -/
theorem Configured.of_sameFiles (level : Level) {files : FileTree}
    (hsame : s.files.SameFiles files) :
    Configured level none [] s
      { s with files, logging := .configured level none } :=
  ⟨rfl, hsame.1, .of_sameFiles rfl hsame⟩

/-- A call that opens a log file adds it to the console. -/
theorem Configured.of_openFile (level : Level) {files files' : FileTree}
    (hs : s.files.Settled) (hsame : s.files.SameFiles files)
    (hopen : files.openFile name = .ok (p, files')) :
    Configured level (some p) [] s
      { s with files := files', logging := .configured level (some p) } := by
  obtain ⟨-, hworking, hbytes⟩ := FileTree.openFile_ok (hsame.settled hs) hopen
  refine ⟨rfl, hworking.trans hsame.1, String.append_empty.symm, fun q => ?_⟩
  show files'.bytesAt q = _
  rw [hbytes, hsame.2, hsame.2]
  by_cases hq : q = p
  · rw [if_pos hq, if_pos (congrArg some hq.symm), hq]
    exact congrArg some (List.append_nil _).symm
  · rw [if_neg hq, if_neg fun heq => hq (Option.some.inj heq).symm]

theorem opens_of_error {e : Trouble} (h : setUp given logFile s = .error e s') :
    opens given logFile s = none := by
  unfold opens
  rw [h]

theorem opens_of_ok (h : setUp given logFile s = .ok () s') :
    opens given logFile s = (logFile.filter (· ≠ "")).map s.files.resolve := by
  unfold opens
  rw [h]

theorem setUp_unnamed (hlevel : given.level = .ok level)
    (hname : logFile.getD "" = "") (s : Session) :
    setUp given logFile s
      = .ok () { s with logging := .configured level none } := by
  unfold setUp
  rw [hlevel]
  show (if logFile.getD "" ≠ "" then _ else _ : Step Unit) _ = _
  rw [if_neg (not_not_intro hname)]
  rfl

/-- What follows on the level in setting up with a log file. -/
theorem setUp_named (hlevel : given.level = .ok level) (hname : name ≠ "")
    (s : Session) :
    setUp given (some name) s
      = (makeLogFolder name >>= fun _ => get >>= fun s =>
          orTrouble (s.files.openFile name) .file >>= fun (p, files) =>
          modify (fun s => { s with files }) >>= fun _ =>
          addSink (.file p) level >>= fun _ => log (announcement name))
        { s with logging := .configured level none } := by
  unfold setUp
  rw [hlevel]
  show (if name ≠ "" then _ else _ : Step Unit) _ = _
  rw [if_pos hname]
  rfl

/-- A call with a log file fails with the console alone, or opens the file
and says so. -/
theorem setUp_named_cases (hlevel : given.level = .ok level)
    (hname : name ≠ "") (s : Session) :
    ∃ files, s.files.SameFiles files
      ∧ ((∃ e, setUp given (some name) s
          = .error e { s with files, logging := .configured level none })
        ∨ ∃ p files', files.openFile name = .ok (p, files')
          ∧ setUp given (some name) s = log (announcement name)
            { s with files := files', logging := .configured level (some p) })
    := by
  have hsetUp := setUp_named hlevel hname s
  obtain ⟨files, hfolder, hsame⟩ :=
    makeLogFolder_keeps name { s with logging := .configured level none }
  refine ⟨files, hsame, ?_⟩
  cases hmade : makeLogFolder name
      { s with logging := .configured level none } with
  | error e s' =>
      rw [hmade] at hfolder
      have hs' : s' = _ := hfolder
      rw [bind_of_error _ hmade, hs'] at hsetUp
      exact .inl ⟨e, hsetUp⟩
  | ok u s' =>
      rw [hmade] at hfolder
      have hs' : s' = _ := hfolder
      rw [bind_of_ok _ hmade, FileTree.get_bind, hs'] at hsetUp
      cases hopen : files.openFile name with
      | error f =>
          refine .inl ⟨.file f, ?_⟩
          rw [hsetUp]
          dsimp only
          rw [hopen]
          rfl
      | ok result =>
          refine .inr ⟨result.1, result.2, rfl, ?_⟩
          rw [hsetUp]
          dsimp only
          rw [hopen]
          rfl

/-- A call with a level leaves the console and the file that it opens. -/
theorem setUp_configured (hs : s.files.Settled)
    (hlevel : given.level = .ok level) (logFile : Option String) :
    Configured level (opens given logFile s) (announced given logFile s) s
      (left (setUp given logFile s)) := by
  unfold announced
  by_cases hname : logFile.getD "" = ""
  · have hsetUp := setUp_unnamed hlevel hname s
    have hopens : opens given logFile s = none := by
      rw [opens_of_ok hsetUp]
      cases logFile with
      | none => rfl
      | some name => simp [show name = "" from hname]
    rw [hopens, hsetUp]
    exact .of_sameFiles level (.refl s.files)
  · cases logFile with
    | none => exact absurd rfl hname
    | some name =>
        have hname : name ≠ "" := hname
        obtain ⟨files, hsame, ⟨e, hfailed⟩ | ⟨p, files', hopen, hlogged⟩⟩ :=
          setUp_named_cases hlevel hname s
        · rw [opens_of_error hfailed, hfailed]
          exact .of_sameFiles level hsame
        · have hopens : opens given (some name) s = some p := by
            obtain ⟨hp, -⟩ := FileTree.openFile_cases hopen
            rw [log_eq] at hlogged
            rw [opens_of_ok hlogged, Option.filter_some_pos (by simpa using hname)]
            show some (s.files.resolve name) = _
            rw [hp, hsame.resolve]
          rw [hopens, hlogged]
          exact (Configured.of_openFile level hs hsame hopen).log _

-- ==================================================== one after the other

theorem configures_of_level (h : given.level = .ok level)
    (logFile : Option String) :
    (LogEvent.setUp given logFile).configures = true := by
  show given.level.isOk = true
  rw [h]
  rfl

theorem level_of_configures {event : LogEvent} (h : event.configures = true) :
    ∃ given logFile level, event = .setUp given logFile
      ∧ given.level = .ok level := by
  cases event with
  | record r => cases h
  | setUp given logFile =>
      have hok : given.level.isOk = true := h
      cases hlevel : given.level with
      | ok level => exact ⟨given, logFile, level, rfl, hlevel⟩
      | error fault =>
          rw [hlevel] at hok
          cases hok

theorem after_append (s : Session) (events more : List LogEvent) :
    s.after (events ++ more) = (s.after events).after more :=
  List.foldl_append

/-- A call that is rejected because of its level leaves everything as it
was. -/
theorem left_step_of_fault {fault : LevelFault}
    (h : given.level = .error fault) (logFile : Option String) (s : Session) :
    left ((LogEvent.setUp given logFile).step s) = s := by
  show left (setUp given logFile s) = s
  rw [setUp_of_fault h]
  rfl

/-- Records and rejected calls keep what has been set up. -/
theorem Configured.after (h : Configured level opened records s s')
    (hlater : ∀ event ∈ later, event.configures = false) :
    Configured level opened (records ++ later.filterMap LogEvent.record?) s
      (s'.after later) := by
  induction later generalizing records s' with
  | nil =>
      rw [List.filterMap_nil, List.append_nil]
      exact h
  | cons event later ih =>
      obtain ⟨hevent, hrest⟩ := List.forall_mem_cons.1 hlater
      show Configured level opened _ s
        ((left (event.step s')).after later)
      cases event with
      | record r =>
          have hmore := ih (h.log r) hrest
          rw [List.append_assoc] at hmore
          exact hmore
      | setUp given logFile =>
          cases hlevel : given.level with
          | ok l =>
              rw [configures_of_level hlevel] at hevent
              cases hevent
          | error fault =>
              rw [left_step_of_fault hlevel]
              exact ih h hrest

/-- Names keep beginning in the same folder. -/
theorem step_working (hs : s.files.Settled) (event : LogEvent) :
    (left (event.step s)).files.working = s.files.working := by
  cases event with
  | record r => exact (deliver_keeps s (s.logging.outputs r)).2
  | setUp given logFile =>
      cases hlevel : given.level with
      | ok level => exact (setUp_configured hs hlevel logFile).working
      | error fault => rw [left_step_of_fault hlevel]

theorem settled_after (hs : s.files.Settled) (events : List LogEvent) :
    (s.after events).files.Settled := by
  induction events generalizing s with
  | nil => exact hs
  | cons event events ih =>
      refine ih (s := left (event.step s)) ?_
      unfold FileTree.Settled
      rw [step_working hs event]
      exact hs

/-- If there is a call with a level, there is a last one. -/
theorem exists_last_configures
    (h : ∃ event ∈ events, event.configures = true) :
    ∃ front given logFile later level,
      events = front ++ .setUp given logFile :: later
        ∧ given.level = .ok level
        ∧ ∀ event ∈ later, event.configures = false := by
  induction events with
  | nil =>
      obtain ⟨event, hevent, -⟩ := h
      cases hevent
  | cons first events ih =>
      by_cases hlater : ∃ event ∈ events, event.configures = true
      · obtain ⟨front, given, logFile, later, level, rfl, hlast⟩ := ih hlater
        exact ⟨first :: front, given, logFile, later, level, rfl, hlast⟩
      · have hnone (event) (hevent : event ∈ events) :
            event.configures = false :=
          eq_false_of_ne_true fun hyes => hlater ⟨event, hevent, hyes⟩
        obtain ⟨event, hevent, hyes⟩ := h
        rcases List.mem_cons.1 hevent with rfl | hevent
        · obtain ⟨given, logFile, level, rfl, hlevel⟩ :=
            level_of_configures hyes
          exact ⟨[], given, logFile, events, level, rfl, hlevel, hnone⟩
        · exact absurd ⟨event, hevent, hyes⟩ hlater

theorem level_of_setUp (h : setUp given logFile s = .ok () s') :
    ∃ level, given.level = .ok level := by
  cases hlevel : given.level with
  | ok level => exact ⟨level, rfl⟩
  | error fault =>
      rw [setUp_of_fault hlevel] at h
      cases h

/-- Setting up logging again duplicates no record and leaks none. Once one
call has succeeded, consider the last one that had a level. Since then the
level is that one, and the sinks are the console and the file that the call
opened; without such a file, the console alone. The lines of the records
since then that are positive and reach the level have been added to the
console and to that file, each once and in order, and nothing to any other
file. The next record is added in the same way, and a call without a level
changes nothing. -/
theorem records_written_once (s : Session) (hs : s.files.Settled)
    (events : List LogEvent)
    (hcall : ∃ front given logFile back s',
      events = front ++ .setUp given logFile :: back
        ∧ setUp given logFile (s.after front) = .ok () s') :
    ∃ front given logFile later level,
      events = front ++ .setUp given logFile :: later
      ∧ given.level = .ok level
      ∧ (∀ event ∈ later, event.configures = false)
      ∧ let called := s.after front
        let opened := opens given logFile called
        (s.after events).logging = .configured level opened
        ∧ Adds opened
          (written level (announced given logFile called
            ++ later.filterMap LogEvent.record?)) called (s.after events)
        ∧ (∀ r, Adds opened (if r.reaches level then r.line else "")
          (s.after events) (s.after (events ++ [.record r])))
        ∧ ∀ given' logFile' fault, given'.level = .error fault →
          setUp given' logFile' (s.after events)
            = .error (.level fault) (s.after events) := by
  have hconfigures : ∃ event ∈ events, event.configures = true := by
    obtain ⟨front, given, logFile, back, s', rfl, hok⟩ := hcall
    obtain ⟨level, hlevel⟩ := level_of_setUp hok
    exact ⟨.setUp given logFile, List.mem_append_right _ List.mem_cons_self,
      configures_of_level hlevel logFile⟩
  obtain ⟨front, given, logFile, later, level, rfl, hlevel, hlater⟩ :=
    exists_last_configures hconfigures
  refine ⟨front, given, logFile, later, level, rfl, hlevel, hlater, ?_⟩
  intro called opened
  have hsetUp := setUp_configured (settled_after hs front) hlevel logFile
  have hafter : Configured level opened
      (announced given logFile called ++ later.filterMap LogEvent.record?)
      called (s.after (front ++ .setUp given logFile :: later)) := by
    rw [after_append]
    exact hsetUp.after hlater
  refine ⟨hafter.logging, hafter.adds, fun r => ?_,
    fun given' logFile' fault hfault => setUp_of_fault hfault _ logFile'⟩
  rw [after_append _ _ [.record r]]
  exact log_adds hafter.logging hafter.adds.isOpen r

/-- A call with a name for the level and a file with something in it, a call
that is rejected, and records that do and do not reach the level. -/
theorem records_written_once_behind :
    let path := ["home", "a.log"]
    let s := fresh ⟨["home"],
      .folder [("home", .folder [("a.log", .file (utf8 "old\n"))])]⟩
    let events : List LogEvent := [.setUp (.name "info") (some "a.log"),
      .setUp (.name "loud") none, .record ⟨"", 10, "unseen"⟩,
      .record ⟨"logic", 20, "seen"⟩]
    let s' := s.after events
    (s.files.Settled ∧ ∃ t, setUp (.name "info") (some "a.log") s = .ok () t)
    ∧ (s'.err = "logic - INFO - seen\n"
      ∧ s'.files.bytesAt path = some (utf8 "old\nlogic - INFO - seen\n"))
    ∧ s'.logging = .configured 20 (some path)
    ∧ Adds (some path) "root - ERROR - grave\n" s'
      (s.after (events ++ [.record ⟨"", 40, "grave"⟩])) := by
  intro path s events s'
  have hs : s.files.Settled := by
    intro c hc
    rw [List.mem_singleton.1 hc]
    exact ⟨rfl, by decide⟩
  have hcall : setUp (.name "info") (some "a.log") s
      = .ok () (left (setUp (.name "info") (some "a.log") s)) := by
    rfl
  have hlogging : s'.logging = .configured 20 (some path) := by
    decide +kernel
  have herr : s'.err = "logic - INFO - seen\n" := by decide +kernel
  have hbytes : s'.files.bytesAt path
      = some (utf8 "old\nlogic - INFO - seen\n") := by decide +kernel
  obtain ⟨front, given, logFile, later, level, -, -, -, hconfigured, -,
    hnext, -⟩ := records_written_once s hs events ⟨[], _, _, _, _, rfl, hcall⟩
  obtain ⟨hlevel, hopened⟩ :=
    Logging.configured_inj (hconfigured.symm.trans hlogging)
  have hgrave := hnext ⟨"", 40, "grave"⟩
  rw [hlevel, hopened] at hgrave
  exact ⟨⟨hs, _, hcall⟩, ⟨herr, hbytes⟩, hlogging, hgrave⟩

/-- A record without a positive level is not written, whatever level has been
set. -/
theorem unleveled_record_unwritten :
    let s := fresh ⟨[], .empty⟩
    let s' := s.after [.setUp (.number 0) none]
    let r : Record := ⟨"a", 0, "zero"⟩
    setUp (.number 0) none s = .ok () s'
    ∧ s'.logging.level ≤ r.level
    ∧ (s'.after [.record r]).err ≠ s'.err ++ r.line := by
  exact ⟨rfl, by decide, by decide +kernel⟩

end Session

end RobotLang
