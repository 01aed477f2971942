/-
Sessions: checking program files, with what is printed, what is logged and
what becomes of the files.

Files named as arguments are checked one after the other. Without
arguments the names are asked for, one a line, until a blank line. A
trouble ends the session where it occurs; what was printed and logged
before it remains.
-/
import RobotLang.Source
import RobotLang.Settings

namespace RobotLang

/-- The files, the state of logging, and what has been printed to standard
output and to the console. -/
structure Session where
  files : FileTree
  logging : Logging
  out : String
  err : String
  deriving Repr

/-- A step of a session, which ends with a value or in trouble. -/
abbrev Step (α : Type) := EStateM Trouble Session α

namespace Session

/-- A session in which nothing has happened. -/
def fresh (files : FileTree) : Session := ⟨files, .initial, "", ""⟩

/-- Prints a text. -/
def write (text : String) : Step Unit :=
  modify fun s => { s with out := s.out ++ text }

/-- Prints a line. -/
def print (line : String) : Step Unit := write (line ++ "\n")

-- ============================================================== logging

/-- Delivers a text to a target. -/
def deliver (s : Session) : Target × String → Session
  | (.console, text) => { s with err := s.err ++ text }
  | (.file p, text) => { s with files := s.files.append p (Text.utf8 text) }

/-- Logs a record. -/
def log (r : Record) : Step Unit :=
  modify fun s => (s.logging.outputs r).foldl deliver s

/-- Adds a sink. -/
def addSink (target : Target) (level : Level) : Step Unit :=
  modify fun s =>
    let sinks := s.logging.sinks ++ [⟨target, level⟩]
    { s with logging := { s.logging with sinks } }

/-- The value of a computation that may be in trouble. -/
def orTrouble {ε α : Type} (x : Except ε α) (trouble : ε → Trouble) :
    Step α :=
  match x with
  | .ok a => return a
  | .error e => throw (trouble e)

/-- Makes the folder of a log file unless it is there. -/
def makeLogFolder (name : String) : Step Unit := do
  let folder := PathName.folder name
  if folder ≠ "" && !(← get).files.holds folder then
    match FileTree.makeFolders folder (← get).files with
    | .ok () files => modify fun s => { s with files }
    | .error e files =>
      modify fun s => { s with files }
      throw (.file e)

/-- Sets up logging: a level, and a file besides the console if a name is
given and not empty. -/
def setUp (given : LevelGiven) (logFile : Option String) : Step Unit := do
  let level ← orTrouble given.level .level
  modify fun s => { s with logging := ⟨level, [⟨.console, level⟩]⟩ }
  let name := logFile.getD ""
  if name ≠ "" then
    makeLogFolder name
    let (path, files) ← orTrouble ((← get).files.openFile name) .file
    modify fun s => { s with files }
    addSink (.file path) level
    log ⟨"", .debug, "Logging to console and " ++ name⟩

-- ============================================================= checking

def separator : String := "================="

/-- Parses the named file, logs what there is to log, and shows the
program if there is one. -/
def present (encoding name : String) : Step Unit := do
  let (records, result) := Source.parseFile (← get).files encoding name
  records.forM log
  let program? ← orTrouble result id
  print "Parsing completed"
  match program? with
  | none => pure ()
  | some p =>
    print (separator ++ "\nProgram:")
    print p.text
  print separator

/-- Shows a file that was named as an argument, if it is there. -/
def showArgument (encoding name : String) : Step Unit := do
  if (← get).files.holds name then
    print ("Parsing '" ++ name ++ "'")
    present encoding name
  else print ("Can't find file '" ++ name ++ "'")

/-- Asks for a name. -/
def ask : Step Unit :=
  write "Enter the program file to load (empty to quit): "

/-- Takes a line as the answer: whether to go on. -/
def answer (encoding line : String) : Step Bool := do
  let name := Text.strip line
  if name = "" then return false
  present encoding name
  return true

/-- Asks for names and takes the lines as answers, up to a blank one. -/
def dialogue (encoding : String) : List String → Step Unit
  | [] => do
    ask
    throw .noInput
  | line :: lines => do
    ask
    if ← answer encoding line then dialogue encoding lines else pure ()

/-- The lines of an input. What follows the last line feed is a line unless
it is empty. -/
def lines (input : String) : List String :=
  let pieces := (input.toList.splitOn '\n').map String.ofList
  if pieces.getLast? = some "" then pieces.dropLast else pieces

/-- Checks the files named as arguments, or those named in the input if
there are none. -/
def check (settings : Settings) (arguments : List String)
    (input : String) : Step Unit := do
  setUp (.name settings.logLevel) settings.logFile
  if arguments.isEmpty then dialogue settings.sourceEncoding (lines input)
  else arguments.forM (showArgument settings.sourceEncoding)
  print "Done"

/-- Parses the first file named as an argument and prints its program or
what is wrong with it: the exit code. -/
def preview (arguments : List String) : Step Nat := do
  match arguments with
  | [] =>
    print "Usage: python parser.py <filename>"
    return 1
  | name :: _ =>
    match Source.text (← get).files "utf-8" name with
    | .error (.file (.denied d n)) =>
      let fault := FileFault.denied d n
      print ("Error reading file " ++ name ++ ": " ++ fault.message)
      return 1
    | .error e => throw e
    | .ok source =>
      match Program.ofText source with
      | .error (.tooLong n) => throw (.tooLong n)
      | .error (.rejected f) =>
        print ("Parsing error: " ++ f.text)
        return 1
      | .ok p =>
        print "Parsed Program:"
        print p.text
        return 0

end Session

end RobotLang
