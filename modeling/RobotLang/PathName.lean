/-
The names of files: components between slashes. An empty component and a
single dot stand for the folder that has been reached, two dots for the
one above it.
-/
namespace RobotLang.PathName

/-- The components of a name, empty ones included. -/
def components (name : String) : List String :=
  (name.toList.splitOn '/').map String.ofList

/-- Whether the name begins at the top and not at the working folder. -/
def isAbsolute (name : String) : Bool := name.toList.head? = some '/'

/-- Whether a component stays in the folder that has been reached. -/
def stays (component : String) : Bool := component = "" || component = "."

/-- The name of the folder that holds the named file: the name up to its
last slash, without the slashes that end it, unless it is all slashes. -/
def folder (name : String) : String :=
  let before := (name.toList.reverse.dropWhile (· ≠ '/')).reverse
  let bare := (before.reverse.dropWhile (· = '/')).reverse
  String.ofList (if bare.isEmpty then before else bare)

/-- How a name begins: with nothing, or at the top with a slash. Exactly two
slashes in front are kept as they are, any other number of them as one. -/
def root (name : String) : String :=
  let slashes := (name.toList.takeWhile (· = '/')).length
  if slashes = 0 then "" else if slashes = 2 then "//" else "/"

/-- The name without what stays in the same folder; a name of which nothing
is left is a dot. -/
def tidy (name : String) : String :=
  let body := "/".intercalate ((components name).filter fun c => !stays c)
  let text := root name ++ body
  if text = "" then "." else text

/-- The names of the folders on the way to a folder, the outermost first,
and that folder last. -/
def stages (name : String) : List String :=
  let cs := components name
  (List.range cs.length).filterMap fun i =>
    if cs[i]? = some "" then none
    else some ("/".intercalate (cs.take (i + 1)))

end RobotLang.PathName
