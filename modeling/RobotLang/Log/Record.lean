/-
Log records: who says something, how grave it is, and what. Levels are
integers, of which six have names; two of the names have a second
spelling, which is understood and never written.
-/
namespace RobotLang

/-- How grave a record is. -/
abbrev Level := Int

namespace Level

def critical : Level := 50
def error : Level := 40
def warning : Level := 30
def info : Level := 20
def debug : Level := 10
def notset : Level := 0

/-- The levels with the names under which they are written. -/
def names : List (String × Level) :=
  [("CRITICAL", critical), ("ERROR", error), ("WARNING", warning),
   ("INFO", info), ("DEBUG", debug), ("NOTSET", notset)]

/-- Further names under which levels are known. -/
def aliases : List (String × Level) :=
  [("FATAL", critical), ("WARN", warning)]

/-- The name of a level; a level without one is shown by its number. -/
def name (l : Level) : String :=
  match names.find? (·.2 == l) with
  | some (n, _) => n
  | none => "Level " ++ toString l

/-- The level of a name, given in upper case. -/
def ofName? (n : String) : Option Level :=
  ((names ++ aliases).find? (·.1 == n)).map Prod.snd

end Level

/-- A log record. -/
structure Record where
  logger : String
  level : Level
  message : String
  deriving DecidableEq, Repr

end RobotLang
