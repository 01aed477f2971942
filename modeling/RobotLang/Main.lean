/-
The command line. Files named as arguments are checked, or those whose
names are typed in; after `--parse-only` the first file is parsed and
printed. Settings come from the environment and from a file `.env`.

All that is decided is decided by `Session`. Here the part of the file
system that a name touches is loaded into a file tree before each step,
and after it what the step printed is printed and what it logged to a file
is stored.
-/
import RobotLang.Session

open RobotLang

namespace RobotLang.CommandLine

-- ========================================================= file system

/-- What is stored at a path. That reading it is refused because it is a
folder shows that it is one. -/
def probe (p : Path) : IO (Option Node) := do
  try
    let bytes ← IO.FS.readBinFile (FileTree.fullName p)
    return some (.file bytes.toList)
  catch
    | .inappropriateType _ code _ =>
      if code.toNat = Denial.isFolder.number then return some .empty
      else return none
    | _ => return none

/-- Loads what a name touches. -/
def load (files : FileTree) (name : String) : IO FileTree := do
  let mut t := files
  let mut p := if PathName.isAbsolute name then [] else t.working
  for c in PathName.components name do
    p := FileTree.resolve.follow p c
    if let some n ← probe p then t := t.store p n
  return t

/-- Stores the log files. -/
def save (s : Session) : IO Unit := do
  for sink in s.logging.sinks do
    if let .file p := sink.target then
      if let some (.file bytes) := s.files.find? p then
        IO.FS.createDirAll (FileTree.fullName p.dropLast)
        IO.FS.writeBinFile (FileTree.fullName p) ⟨bytes.toArray⟩

-- ============================================================== sessions

/-- Prints what a session has to print, and gives it without that. -/
def flush (s : Session) : IO Session := do
  save s
  IO.print s.out
  (← IO.getStdout).flush
  IO.eprint s.err
  return { s with out := "", err := "" }

/-- Performs a step. Trouble is reported. -/
def perform {α : Type} (step : Step α) (s : Session) :
    IO (Option α × Session) := do
  match step s with
  | .ok a s => return (some a, ← flush s)
  | .error e s =>
    let s ← flush s
    IO.eprintln e.message
    return (none, s)

/-- Checks the files named as arguments: the exit code. -/
def checkAll (encoding : String) (s : Session) : List String → IO UInt32
  | [] => do
    let _ ← perform (Session.print "Done") s
    return 0
  | name :: names => do
    let files ← load s.files name
    let step := Session.showArgument encoding name
    match ← perform step { s with files } with
    | (some (), s) => checkAll encoding s names
    | (none, _) => return 1

/-- Asks for names and checks the files, until a blank line: the exit
code. -/
partial def converse (encoding : String) (s : Session) : IO UInt32 := do
  let (_, s) ← perform Session.ask s
  let line ← (← IO.getStdin).getLine
  if line.isEmpty then
    let _ ← perform (throw .noInput : Step Unit) s
    return 1
  let line := (Session.lines line).headD ""
  let files ← load s.files (Text.strip line)
  match ← perform (Session.answer encoding line) { s with files } with
  | (some true, s) => converse encoding s
  | (some false, s) => checkAll encoding s []
  | (none, _) => return 1

-- ============================================================== settings

/-- The named values of the environment, as far as they are there. -/
def environment (names : List String) : IO (Named String) :=
  names.filterMapM fun name => do
    return (← IO.getEnv name).map fun value => (name, value)

/-- The text of the settings file, empty if there is none. -/
def settingsText : IO String := do
  let bytes ← try IO.FS.readBinFile ".env" catch _ => pure .empty
  match Settings.fileText bytes.toList with
  | .ok text => return text
  | .error e => throw (.userError e.message)

/-- The settings that are in force. -/
def settings : IO Settings := do
  let text ← settingsText
  let names := ["ROBOT_LOG_LEVEL", "ROBOT_LOG_FILE", "ROBOT_SOURCE_ENCODING"]
  let values ← environment (names ++ names.map Settings.fold)
  let mentioned ← environment ((Text.references text).map (·.name))
  return Settings.ofValues values (Settings.ofFile mentioned text)

/-- A session in the working folder. -/
def openHere : IO Session := do
  let here := PathName.components (← IO.currentDir).toString
  return .fresh (.bare (here.filter (· ≠ "")))

/-- Checks files. -/
def check (arguments : List String) : IO UInt32 := do
  let st ← settings
  let s ← openHere
  let files ← load s.files (st.logFile.getD "")
  let setUp := Session.setUp (.name st.logLevel) st.logFile
  match ← perform setUp { s with files } with
  | (none, _) => return 1
  | (some (), s) =>
    if arguments.isEmpty then converse st.sourceEncoding s
    else checkAll st.sourceEncoding s arguments

/-- Parses one file. -/
def preview (arguments : List String) : IO UInt32 := do
  let s ← openHere
  let files ← load s.files (arguments.headD "")
  match ← perform (Session.preview arguments) { s with files } with
  | (some code, _) => return code.toUInt32
  | (none, _) => return 1

end RobotLang.CommandLine

def main (arguments : List String) : IO UInt32 :=
  match arguments with
  | "--parse-only" :: rest => CommandLine.preview rest
  | _ => CommandLine.check arguments
