import DocTypes.Text.Lines

/-!
# Paths

A path is a row of names, from the top or from the working directory. Empty names and the name of
the same directory are left out when a path is read; the name of the directory above stays, since
only a walk through the files tells where it leads. `resolve` takes it by the text alone.
-/

namespace DocTypes

/-- A path. -/
structure Path where
  /-- how many slashes it begins with: none, one or two -/
  slashes : Nat
  names : List String
deriving DecidableEq, Repr

namespace Path

/-- The parts of a text between slashes. -/
def parts (text : String) : List String :=
  (splitAll '/' text.toList).map String.ofList

/-- The name of the directory above. -/
def above : String := ".."

/-- Does a name lead nowhere else? -/
def staysHere (name : String) : Bool :=
  name == "" || name == "."

/-- Does a text begin at the top? -/
def startsAtTop (text : String) : Bool :=
  "/".toList.isPrefixOf text.toList

/-- Reads a path. Three slashes at its start count as one. -/
def ofText (text : String) : Path where
  slashes :=
    let count := (text.toList.takeWhile (· == '/')).length
    if count ≤ 2 then count else 1
  names := (parts text).filter fun name => !staysHere name

/-- The text of a path. -/
def text (path : Path) : String :=
  if path.slashes == 0 && path.names.isEmpty then "."
  else String.ofList (List.replicate path.slashes '/') ++ "/".intercalate path.names

/-- Does a path begin at the top? -/
def isAbsolute (path : Path) : Bool :=
  path.slashes != 0

/-- A path seen from a directory. -/
def join (directory path : Path) : Path :=
  if path.isAbsolute then path else { directory with names := directory.names ++ path.names }

/-- The names from the top, the directories above taken by the text alone. There is nothing above
the top. -/
def collapse (names : List String) : List String :=
  names.foldl (fun place name => if name == above then place.dropLast else place ++ [name]) []

/-- Where a path begins, seen from a working directory. -/
def base (workingDirectory : List String) (path : Path) : List String :=
  if path.isAbsolute then [] else workingDirectory

/-- Can a name be the name of a file? -/
def isSpeakable (name : String) : Bool :=
  !name.toList.contains '\x00'

/-- The place of a path, by its text alone. No file can have a name with a null character. -/
def resolve? (workingDirectory : List String) (path : Path) : Option (List String) :=
  if path.names.all isSpeakable then some (collapse (path.base workingDirectory ++ path.names))
  else none

/-- What is left of a place after a directory's place. -/
def relativeTo? : List String → List String → Option (List String)
  | place, [] => some place
  | [], _ :: _ => none
  | name :: place, first :: directory =>
    if name == first then relativeTo? place directory else none

end Path

end DocTypes
