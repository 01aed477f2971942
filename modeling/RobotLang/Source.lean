/-
Program sources: from a text or a named file to a program, with the
records that are logged on the way.

That a file cannot be read, or holds no program, is logged and gives no
program. Other troubles with a source are not dealt with here and are
handed on.
-/
import RobotLang.FileTree
import RobotLang.Log.Setup
import RobotLang.Reading.Rules
import RobotLang.Tree.Text

namespace RobotLang

open Text

/-- What can go wrong that is not a syntax error. -/
inductive Trouble
  | level (fault : LevelFault)
  | file (fault : FileFault)
  | encoding (name : String)
  | nulInEncoding
  | undecodable (error : DecodeError)
  | tooLong (digits : Nat)
  | noInput
  deriving DecidableEq, Repr

def Trouble.message : Trouble → String
  | level f => f.message
  | file f => f.message
  | encoding n => "unknown encoding: " ++ n
  | nulInEncoding => "embedded null character"
  | undecodable e => e.message
  | tooLong n => (Refusal.tooLong n).message
  | noInput => "EOF when reading a line"

namespace Source

/-- The text of the named file. The encoding is looked up once the file is
known to be there, but no file is looked for if the name of the encoding
has a NUL in it. -/
def text (files : FileTree) (encoding name : String) :
    Except Trouble String := do
  if FileTree.hasNul encoding then throw .nulInEncoding
  let bytes ← (files.content name).mapError .file
  match Encoding.ofName? encoding with
  | none => throw (.encoding encoding)
  | some e =>
    let cs ← (decode e bytes).mapError .undecodable
    return String.ofList (unifyLineEnds cs)

-- ============================================================== records

def tokenized (count : Nat) : Record :=
  ⟨"logic", .debug, "Tokenized " ++ toString count ++ " tokens"⟩

def counted (p : Program) : Record :=
  ⟨"logic", .debug,
    "Parsed " ++ toString p.statements.length ++ " top-level statements"⟩

def parsed (name : String) : Record :=
  ⟨"logic", .info, "Parsed " ++ name⟩

def unreadable (name : String) (fault : FileFault) : Record :=
  ⟨"logic", .error, "Robot program source file " ++ name
    ++ " could not be read: " ++ fault.message⟩

def malformed (name : String) (failure : Failure) : Record :=
  ⟨"logic", .error, "Parser error in " ++ name ++ ":\n" ++ failure.text⟩

-- ============================================================= programs

/-- The program of a text. -/
def parseText (text : String) : List Record × Except Refusal Program :=
  let tokens := tokenize text
  let first := tokenized tokens.length
  match Program.ofTokens tokens with
  | .ok p => ([first, counted p], .ok p)
  | .error r => ([first], .error r)

/-- The program in the named file, if it can be read and holds one. -/
def parseFile (files : FileTree) (encoding name : String) :
    List Record × Except Trouble (Option Program) :=
  match text files encoding name with
  | .error (.file (.denied d n)) =>
    ([unreadable name (.denied d n)], .ok none)
  | .error e => ([], .error e)
  | .ok source =>
    match parseText source with
    | (rs, .ok p) => (rs ++ [parsed name], .ok (some p))
    | (rs, .error (.rejected f)) => (rs ++ [malformed name f], .ok none)
    | (rs, .error (.tooLong n)) => (rs, .error (.tooLong n))

/-- Whether the named file holds a program. -/
def checkFile (files : FileTree) (encoding name : String) :
    List Record × Except Trouble Bool :=
  let (rs, result) := parseFile files encoding name
  (rs, result.map Option.isSome)

end Source

end RobotLang
