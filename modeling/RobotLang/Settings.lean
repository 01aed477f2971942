/-
Settings: the log level, the log file, and the encoding of program files.

They come from named values, those of the environment before those of a
settings file, and names are matched without regard to case. Of several
names that match, the last counts.

A settings file has a line for each value, `NAME=VALUE`, and comments,
which begin with a number sign. A value may refer to the values of the
lines before it and to those of the environment. A name that is given
again, in the same case, takes the new value and keeps its place. A name
that stands alone has no value, whatever it had before. The file is in
UTF-8, with or without a byte order mark in front. Values in quotation marks
are not modelled.
-/
import RobotLang.Named
import RobotLang.PathName
import RobotLang.Text.Blank
import RobotLang.Text.Encoding
import RobotLang.Text.Reference

namespace RobotLang

structure Settings where
  logLevel : String
  logFile : Option String
  sourceEncoding : String
  deriving DecidableEq, Repr

namespace Settings

/-- The settings when none is given. -/
def standard : Settings := ⟨"INFO", none, "utf-8"⟩

/-- A name in lower case; the names of settings are ASCII. -/
def fold (name : String) : String :=
  String.ofList (name.toList.map Char.toLower)

/-- The last value of a name. -/
def find? {α : Type} (values : Named α) (name : String) : Option α :=
  (values.reverse.find? fun v => fold v.1 == name).map Prod.snd

-- ======================================================== settings file

/-- A value without the comment that may follow it: white space, a number
sign, and the rest of the line. -/
def uncommented : List Char → List Char
  | [] => []
  | c :: cs =>
    if Text.isBlank c && cs.head? = some '#' then [] else c :: uncommented cs

/-- What is behind the word `export` and white space, if a line begins with
them; else the line. -/
def unmarked (line : List Char) : List Char :=
  let mark := "export".toList
  let rest := line.drop mark.length
  if mark.isPrefixOf line && (rest.head?.map Text.isBlank).getD false then
    rest.dropWhile Text.isBlank
  else line

/-- Whether a name can contain the character. -/
def isNameChar (c : Char) : Bool := !Text.isBlank c && c ≠ '#' && c ≠ '='

/-- The name on a line and its value, if it has one. A line with anything
but a value or a comment behind the name gives none. -/
def ofLine (line : List Char) : Option (String × Option String) :=
  let text := unmarked (line.dropWhile Text.isBlank)
  let name := String.ofList (text.takeWhile isNameChar)
  let rest := (text.dropWhile isNameChar).dropWhile Text.isBlank
  if name = "" then none
  else
    match rest with
    | '=' :: value =>
      some (name, some (Text.strip (String.ofList (uncommented value))))
    | [] | '#' :: _ => some (name, none)
    | _ => none

/-- What a settings file says: the names in it, with their values. -/
abbrev Entries := Named (Option String)

/-- The value that a reference finds: that of an entry, or else of the
environment. A name without a value hides what the environment has. -/
def mention (environment : Named String) (entries : Entries)
    (name : String) : Option String :=
  match entries.lookup name with
  | some value => some (value.getD "")
  | none => environment.lookup name

/-- The entries with that of a line. -/
def define (environment : Named String) (entries : Entries)
    (line : String × Option String) : Entries :=
  let value := line.2.map (Text.expand (mention environment entries))
  Named.assign line.1 value entries

/-- The text of a settings file. One byte order mark in front is no part of
it. -/
def fileText (bytes : Text.Bytes) : Except Text.DecodeError String :=
  (Text.decode .utf8 bytes).map fun
    | '\ufeff' :: cs => String.ofList cs
    | cs => String.ofList cs

/-- The entries of a settings file, in that environment. -/
def ofFile (environment : Named String) (text : String) : Entries :=
  let lines := (Text.unifyLineEnds text.toList).splitOn '\n'
  (lines.filterMap ofLine).foldl (define environment) []

-- ============================================================== reading

/-- The settings that an environment and a settings file give. -/
def ofValues (environment : Named String) (file : Entries) : Settings :=
  let value (name : String) : Option String :=
    let name := "robot_" ++ name
    (find? environment name).or (find? file name).join
  { logLevel := (value "log_level").getD standard.logLevel
    logFile := (value "log_file").map PathName.tidy
    sourceEncoding := (value "source_encoding").getD standard.sourceEncoding }

end Settings

end RobotLang
