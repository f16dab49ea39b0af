import DocTypes.Project.Path

/-!
# Files

The files are a tree: a file has its bytes, and a folder has entries by name. A path is followed
from entry to entry, and every entry but the last one has to be a folder. An action on the files can
fail, and what it did up to there stays.
-/

namespace DocTypes

/-- A file, or a folder with all that is in it. -/
inductive FileTree where
  | file (bytes : ByteArray)
  | folder (entries : List (String × FileTree))
deriving Inhabited

/-- Why an action on files failed. -/
inductive FileFault where
  | missing
  | notFolder
  | isFolder
  | alreadyThere
  | nameTooLong
deriving DecidableEq, Repr

namespace FileFault

/-- The name of the kind of a fault. -/
def kind : FileFault → String
  | .missing => "FileNotFoundError"
  | .notFolder => "NotADirectoryError"
  | .isFolder => "IsADirectoryError"
  | .alreadyThere => "FileExistsError"
  | .nameTooLong => "OSError"

/-- The number of a fault. -/
def number : FileFault → Nat
  | .missing => 2
  | .notFolder => 20
  | .isFolder => 21
  | .alreadyThere => 17
  | .nameTooLong => 36

/-- The wording of a fault. -/
def text : FileFault → String
  | .missing => "No such file or directory"
  | .notFolder => "Not a directory"
  | .isFolder => "Is a directory"
  | .alreadyThere => "File exists"
  | .nameTooLong => "File name too long"

/-- What is reported of a fault. -/
def message (fault : FileFault) : String :=
  "[Errno " ++ toString fault.number ++ "] " ++ fault.text

end FileFault

namespace FileTree

/-- The entry at a place. -/
def get? : FileTree → List String → Option FileTree
  | tree, [] => some tree
  | .file _, _ :: _ => none
  | .folder entries, name :: rest =>
    match entries.lookup name with
    | some tree => tree.get? rest
    | none => none

/-- The entries with one of them put in, in the place of one with its name or at the end. -/
def putEntry (name : String) (tree : FileTree) : List (String × FileTree) → List (String × FileTree)
  | [] => [(name, tree)]
  | entry :: rest =>
    if entry.1 == name then (name, tree) :: rest else entry :: putEntry name tree rest

/-- The tree with an entry put at a place. Folders on the way are made where they are missing. -/
def put : FileTree → List String → FileTree → FileTree
  | _, [], entry => entry
  | .file _, name :: rest, entry => .folder [(name, (FileTree.folder []).put rest entry)]
  | .folder entries, name :: rest, entry =>
    .folder (putEntry name (((entries.lookup name).getD (.folder [])).put rest entry) entries)

/-- Is there a folder at a place? -/
def isFolderAt (tree : FileTree) (place : List String) : Bool :=
  match tree.get? place with
  | some (.folder _) => true
  | _ => false

/-- Is there a file at a place? -/
def isFileAt (tree : FileTree) (place : List String) : Bool :=
  match tree.get? place with
  | some (.file _) => true
  | _ => false

mutual

/-- The places of a folder and of the folders in it, seen from it. -/
def folders : FileTree → List (List String)
  | .file _ => []
  | .folder entries => [] :: foldersIn entries

/-- The places of the folders among entries. -/
def foldersIn : List (String × FileTree) → List (List String)
  | [] => []
  | (name, tree) :: rest => tree.folders.map (name :: ·) ++ foldersIn rest

end

mutual

/-- The files and the empty folders of a tree, by their places. -/
def leaves : FileTree → List (List String × Option ByteArray)
  | .file bytes => [([], some bytes)]
  | .folder [] => [([], none)]
  | .folder (entry :: entries) => leavesIn (entry :: entries)

/-- The files and the empty folders among entries. -/
def leavesIn : List (String × FileTree) → List (List String × Option ByteArray)
  | [] => []
  | (name, tree) :: rest => (tree.leaves.map fun leaf => (name :: leaf.1, leaf.2)) ++ leavesIn rest

end

/-- The most bytes a name may have. -/
def nameLimit : Nat := 255

/-- Where names lead to, from a place that is there. -/
def walk (tree : FileTree) : List String → List String → Except FileFault (List String)
  | place, [] => .ok place
  | place, name :: rest =>
    match tree.get? place with
    | some (.folder entries) =>
      if Path.staysHere name then tree.walk place rest
      else if name == Path.above then tree.walk place.dropLast rest
      else if nameLimit < name.utf8ByteSize then .error .nameTooLong
      else if (entries.lookup name).isSome then tree.walk (place ++ [name]) rest
      else .error .missing
    | _ => .error .notFolder

end FileTree

/-- Why a file cannot be read. -/
inductive TextFault where
  | file (fault : FileFault)
  /-- the path holds a null character -/
  | unspeakable
  /-- the bytes are no text in UTF-8 -/
  | notText
deriving DecidableEq, Repr

/-- The name of the kind of a fault. -/
def TextFault.kind : TextFault → String
  | .file fault => fault.kind
  | .unspeakable => "ValueError"
  | .notText => "UnicodeDecodeError"

/-- What is reported of a fault. -/
def TextFault.message? : TextFault → Option String
  | .file fault => some fault.message
  | .unspeakable | .notText => none

/-- The text of the file that a path names, in a tree and seen from a working directory. A slash at
the end of a path asks for a folder. -/
def FileTree.read (tree : FileTree) (workingDirectory : List String) (path : String) :
    Except TextFault (List Char) := do
  unless Path.isSpeakable path do throw .unspeakable
  if path == "" then throw (.file .missing)
  let start := if Path.startsAtTop path then [] else workingDirectory
  let place ← (tree.walk start (Path.parts path)).mapError .file
  match tree.get? place with
  | some (.file bytes) =>
    match String.fromUTF8? bytes with
    | some text => return text.toList
    | none => throw .notText
  | _ => throw (.file .isFolder)

/-- An action on files. When it fails, its tree is kept. -/
abbrev FileAction := ExceptT FileFault (StateM FileTree)

namespace FileAction

/-- Makes a folder. Its names are given from the last one to the first. -/
def makeFolder (start : List String) : List String → FileAction Unit
  | [] => throw .alreadyThere
  | name :: outer => do
    let tree ← get
    let place ← liftExcept (tree.walk start outer.reverse)
    unless tree.isFolderAt place do throw .notFolder
    if name == Path.above then throw .alreadyThere
    if FileTree.nameLimit < name.utf8ByteSize then throw .nameTooLong
    if (tree.get? (place ++ [name])).isSome then throw .alreadyThere
    set (tree.put (place ++ [name]) (.folder []))
where
  /-- A result as an action. -/
  liftExcept {α : Type} : Except FileFault α → FileAction α
    | .ok value => pure value
    | .error fault => throw fault

/-- Makes a folder unless there is one. -/
def ensureFolder (start names : List String) : FileAction Unit :=
  tryCatch (makeFolder start names) fun fault => do
    let tree ← get
    match fault, tree.walk start names.reverse with
    | .missing, _ => throw fault
    | _, .ok place => unless tree.isFolderAt place do throw fault
    | _, .error _ => throw fault

/-- Makes a folder and those that hold it, where they are missing. -/
def ensureFolders (start : List String) : List String → FileAction Unit
  | [] => ensureFolder start []
  | name :: outer =>
    tryCatch (ensureFolder start (name :: outer)) fun fault => do
      match fault with
      | .missing =>
        ensureFolders start outer
        ensureFolder start (name :: outer)
      | _ => throw fault

/-- What is added to a file's name for the file that is written first and then put in its place. -/
def sparePart : Nat := 10

/-- Writes a file, at a path that has its names given from the last one to the first. The folders
that hold it are made. The file is there with all of its text or not at all. -/
def write (start : List String) (text : String) : List String → FileAction Unit
  | [] => throw .isFolder
  | name :: outer => do
    ensureFolders start outer
    let tree ← get
    if FileTree.nameLimit < name.utf8ByteSize + sparePart then throw .nameTooLong
    match tree.walk start outer.reverse with
    | .error fault => throw fault
    | .ok place =>
      if tree.isFolderAt (place ++ [name]) then throw .isFolder
      set (tree.put (place ++ [name]) (.file text.toUTF8))

end FileAction

end DocTypes
