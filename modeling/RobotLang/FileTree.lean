/-
File trees: what is stored from the top down, with the folder in which
names begin, and what happens when a name is looked up, read, written to,
or made a folder.

A name is walked component by component, and every component but the last
must lead to a folder. Two dots lead back to the folder above, for which
the walk keeps the trail that it has come; the top is above itself.
-/
import RobotLang.Named
import RobotLang.PathName
import RobotLang.Text.Encoding
import RobotLang.Text.Quoted

namespace RobotLang

open Text

-- ============================================================== faults

/-- Why the file system refuses. -/
inductive Denial
  | missing | taken | notFolder | isFolder | nameTooLong
  deriving DecidableEq, Repr

namespace Denial

/-- The number of the error. -/
def number : Denial → Nat
  | missing => 2
  | taken => 17
  | notFolder => 20
  | isFolder => 21
  | nameTooLong => 36

def message : Denial → String
  | missing => "No such file or directory"
  | taken => "File exists"
  | notFolder => "Not a directory"
  | isFolder => "Is a directory"
  | nameTooLong => "File name too long"

end Denial

/-- A refusal of the file system: why, and for which name. A name with a
NUL in it never gets that far. -/
inductive FileFault
  | denied (why : Denial) (name : String)
  | nulInName
  deriving DecidableEq, Repr

def FileFault.message : FileFault → String
  | denied d n =>
    "[Errno " ++ toString d.number ++ "] " ++ d.message ++ ": " ++ quoted n
  | nulInName => "embedded null byte"

-- ================================================================ trees

/-- The components that lead from the top to something. -/
abbrev Path := List String

/-- What can be stored: a file, or a folder with what is in it by name. -/
inductive Node
  | file (content : Bytes)
  | folder (inside : List (String × Node))
  deriving Repr

namespace Node

/-- A folder with nothing in it. -/
def empty : Node := folder []

/-- What is in a folder under a name. -/
def child? (name : String) : Node → Option Node
  | file _ => none
  | folder inside => inside.lookup name

/-- What a path leads to. -/
def find? : Node → Path → Option Node
  | n, [] => some n
  | n, c :: p =>
    match n.child? c with
    | none => none
    | some m => m.find? p

/-- The node with something stored at a path, in place of what was there.
Folders are made on the way, but a file on the way remains. -/
def put : Node → Path → Node → Node
  | _, [], new => new
  | file content, _ :: _, _ => file content
  | folder inside, c :: p, new =>
    let below := (inside.lookup c).getD empty
    folder (Named.assign c (below.put p new) inside)

end Node

/-- What is stored from the top down, and the working folder. -/
structure FileTree where
  working : Path
  top : Node
  deriving Repr

namespace FileTree

/-- What a path leads to. -/
def find? (t : FileTree) (p : Path) : Option Node := t.top.find? p

/-- The tree with something stored at a path, in place of what was
there. -/
def put (t : FileTree) (p : Path) (n : Node) : FileTree :=
  { t with top := t.top.put p n }

/-- The tree with something stored at a path, except that a folder takes
nobody's place. -/
def store (t : FileTree) (p : Path) (n : Node) : FileTree :=
  match n, t.find? p with
  | .folder _, some _ => t
  | _, _ => t.put p n

/-- The tree that holds nothing but the way to its working folder. -/
def bare (working : Path) : FileTree :=
  ⟨working, Node.empty.put working .empty⟩

/-- The most bytes that a component, and a whole name, may have. -/
def maxComponent : Nat := 255
def maxName : Nat := 4095

/-- Whether a name has a character that no name can have. -/
def hasNul (name : String) : Bool := name.toList.contains '\x00'

-- ============================================================== walking

/-- The way that a walk has come: the names it has taken from the top on and
what they led to, the last one first. -/
abbrev Trail := List (String × Node)

/-- What a trail leads to. -/
def reached (t : FileTree) (trail : Trail) : Node :=
  (trail.head?.map Prod.snd).getD t.top

/-- The path of a trail. -/
def Trail.path (trail : Trail) : Path := (trail.map Prod.fst).reverse

/-- One component further. -/
def step (t : FileTree) (trail : Trail) (component : String) :
    Except Denial Trail :=
  match t.reached trail with
  | .file _ => .error .notFolder
  | .folder inside =>
    if PathName.stays component then .ok trail
    else if component = ".." then .ok trail.tail
    else if maxComponent < component.utf8ByteSize then .error .nameTooLong
    else
      match inside.lookup component with
      | none => .error .missing
      | some n => .ok ((component, n) :: trail)

/-- The walk of several components. -/
def walk (t : FileTree) (trail : Trail) (components : List String) :
    Except Denial Trail :=
  components.foldlM t.step trail

/-- The trail on which the walk of a name begins. -/
def start (t : FileTree) (name : String) : Trail :=
  if PathName.isAbsolute name then []
  else
    match t.walk [] t.working with
    | .ok trail => trail
    | .error _ => []

/-- The trail on which a name leads. The empty name leads nowhere. -/
def locate (t : FileTree) (name : String) : Except Denial Trail :=
  if name = "" then .error .missing
  else if maxName < name.utf8ByteSize then .error .nameTooLong
  else t.walk (t.start name) (PathName.components name)

/-- Whether the name leads to anything. -/
def holds (t : FileTree) (name : String) : Bool :=
  !hasNul name && (t.locate name).isOk

/-- The content of the named file. -/
def content (t : FileTree) (name : String) : Except FileFault Bytes :=
  if hasNul name then .error .nulInName
  else
    match t.locate name with
    | .error d => .error (.denied d name)
    | .ok trail =>
      match t.reached trail with
      | .file bytes => .ok bytes
      | .folder _ => .error (.denied .isFolder name)

-- ======================================================= making folders

/-- Makes a folder of that name, in a folder that is there. -/
def makeFolder (t : FileTree) (name : String) : Except Denial FileTree := do
  if maxName < name.utf8ByteSize then throw .nameTooLong
  let cs := PathName.components name
  let last := cs.getLast?.getD ""
  let trail ← t.walk (t.start name) cs.dropLast
  match t.reached trail with
  | .file _ => throw .notFolder
  | .folder inside =>
    if last = "." || last = ".." then throw .taken
    if maxComponent < last.utf8ByteSize then throw .nameTooLong
    if (inside.lookup last).isSome then throw .taken
    return t.put (trail.path ++ [last]) .empty

/-- Makes a folder and those on the way to it that do not exist; those made
before a refusal stay. -/
def makeFolders (name : String) : EStateM FileFault FileTree Unit :=
  way (PathName.stages name).reverse
where
  make (stage : String) : EStateM FileFault FileTree Unit := do
    if hasNul stage then throw .nulInName
    match (← get).makeFolder stage with
    | .ok t => set t
    | .error d => throw (.denied d stage)
  /-- Makes the first folder, after those behind it, up to one that exists
  when the walk gets there. Of these it is no trouble if one is taken when
  its turn comes. A dot is no folder of its own, and nothing is left to be
  made of it once the way to it has been. -/
  way : List String → EStateM FileFault FileTree Unit
    | [] => pure ()
    | [stage] => make stage
    | stage :: before :: rest => do
      if (← get).holds before then make stage
      else
        try way (before :: rest)
        catch
          | .denied .taken _ => pure ()
          | e => throw e
        if (PathName.components stage).getLast? ≠ some "." then make stage

-- ============================================================== writing

/-- Where a name leads when two dots merely take back the component before
them, whether that is there or not. -/
def resolve (t : FileTree) (name : String) : Path :=
  let start := if PathName.isAbsolute name then [] else t.working
  (PathName.components name).foldl follow start
where
  follow (p : Path) (c : String) : Path :=
    if PathName.stays c then p
    else if c = ".." then p.dropLast
    else p ++ [c]

/-- The name of a path from the top on. -/
def fullName (p : Path) : String := "/" ++ "/".intercalate p

/-- The path of a name as messages show it: from the working folder on if it
is below that, else from the top. -/
def shown (t : FileTree) (name : String) : String :=
  let p := t.resolve name
  if PathName.root name = "//" then "/" ++ fullName p
  else if t.working.isPrefixOf p then
    PathName.tidy ("/".intercalate (p.drop t.working.length))
  else fullName p

/-- Makes sure that the named file is there to be written to, empty if it
is new, and gives its path. The name is resolved first; what it resolves to
must not be too long, and is what messages show. -/
def openFile (t : FileTree) (name : String) :
    Except FileFault (Path × FileTree) :=
  let p := t.resolve name
  let opened : Except Denial (Path × FileTree) := do
    if maxName < (fullName p).utf8ByteSize then throw .nameTooLong
    if let .file _ := t.reached (← t.walk [] p.dropLast) then throw .notFolder
    if maxComponent < (p.getLast?.getD "").utf8ByteSize then
      throw .nameTooLong
    match t.find? p with
    | some (.folder _) => throw .isFolder
    | some (.file _) => return (p, t)
    | none => return (p, t.put p (.file []))
  if hasNul name then .error .nulInName
  else opened.mapError (.denied · (t.shown name))

/-- The tree with bytes added to the end of a file. -/
def append (t : FileTree) (p : Path) (bytes : Bytes) : FileTree :=
  match t.find? p with
  | some (.file old) => t.put p (.file (old ++ bytes))
  | _ => t

end FileTree

end RobotLang
