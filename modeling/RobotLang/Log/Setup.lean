/-
Logging: which records are let through, and where they go.

There is one level for all loggers. Records go to sinks, each with a level
of its own. As long as none has been set up, grave records are shown on
the console all the same, as bare messages.

Setting up replaces all sinks: the level first, then the console, then the
file if there is one. A level that is none changes nothing; a file that
cannot be opened leaves the new level and the console.
-/
import RobotLang.FileTree
import RobotLang.Log.Record
import RobotLang.Text.Upper

namespace RobotLang

-- ============================================================== levels

/-- What may be given for a level: a number, the name of one in any case,
or something else, as it is shown. -/
inductive LevelGiven
  | number (level : Level)
  | name (name : String)
  | other (shown : String)
  deriving DecidableEq, Repr

/-- What is wrong with a level that was given. -/
inductive LevelFault
  | unknown (name : String)
  | notLevel (shown : String)
  deriving DecidableEq, Repr

def LevelFault.message : LevelFault → String
  | unknown n => "Unknown level: " ++ Text.quoted ("Level " ++ n)
  | notLevel s => "Level not an integer or a valid string: " ++ s

/-- The level that was given. -/
def LevelGiven.level : LevelGiven → Except LevelFault Level
  | number l => .ok l
  | name n =>
    match Level.ofName? (Text.upper n) with
    | some l => .ok l
    | none => .error (.unknown (Text.upper n))
  | other s => .error (.notLevel s)

-- =============================================================== sinks

/-- Where records go. -/
inductive Target
  | console
  | file (path : Path)
  deriving DecidableEq, Repr

/-- A target with the level below which it takes no record. -/
structure Sink where
  target : Target
  level : Level
  deriving DecidableEq, Repr

/-- The state of logging. -/
structure Logging where
  level : Level
  sinks : List Sink
  deriving DecidableEq, Repr

/-- The line that a record becomes, without the time: a whole line has the
time of the record and ` - ` in front of this. There is no clock here, so
that field is left out of every line. -/
def Record.line (r : Record) : String :=
  let logger := if r.logger = "" then "root" else r.logger
  logger ++ " - " ++ r.level.name ++ " - " ++ r.message ++ "\n"

namespace Logging

/-- Logging before anything has been set up. -/
def initial : Logging := ⟨.warning, []⟩

/-- Whether a record is let through. Records without a positive level never
are. -/
def admits (l : Logging) (r : Record) : Bool :=
  0 < r.level && l.level ≤ r.level

/-- The targets and texts that a record becomes. -/
def outputs (l : Logging) (r : Record) : List (Target × String) :=
  if !l.admits r then []
  else if l.sinks.isEmpty then
    if Level.warning ≤ r.level then [(.console, r.message ++ "\n")] else []
  else
    (l.sinks.filter (·.level ≤ r.level)).map fun s => (s.target, r.line)

end Logging

end RobotLang
