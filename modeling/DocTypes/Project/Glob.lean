import DocTypes.Project.FileTree
import DocTypes.Project.Wildcard

/-!
# Patterns for paths

A pattern names paths below a folder, step by step: a name, the folder above, a wildcard for a name,
or `**` for any number of folders. A slash at its end asks for folders. `select` gives the paths
that a pattern names, and for each of them the place it leads to.
-/

namespace DocTypes

/-- A step of a pattern. -/
inductive GlobStep where
  | name (name : String)
  | above
  | deep
  | wild (wildcard : Wildcard)
deriving DecidableEq, Repr

/-- A pattern for paths. -/
structure Glob where
  steps : List GlobStep
  foldersOnly : Bool
deriving DecidableEq, Repr

/-- Why a text is no pattern. -/
inductive GlobFault where
  | absolute (pattern : String)
  | empty
  /-- `**` is a part of a name -/
  | deepInName
  /-- there is no step in it -/
  | stepless
  /-- there is no step before the slash -/
  | slashOnly
deriving DecidableEq, Repr

namespace Glob

/-- Does a name hold two stars in a row? -/
def holdsDeep : List Char → Bool
  | '*' :: '*' :: _ => true
  | _ :: rest => holdsDeep rest
  | [] => false

/-- The step that a name writes. -/
def step (name : String) : Except GlobFault GlobStep :=
  if name == "**" then .ok .deep
  else if name == Path.above then .ok .above
  else if holdsDeep name.toList then .error .deepInName
  else if Wildcard.isWild name.toList then .ok (.wild (Wildcard.read name.toList))
  else .ok (.name name)

/-- Reads a pattern. -/
def read (pattern : String) : Except GlobFault Glob := do
  if Path.startsAtTop pattern then throw (.absolute pattern)
  if pattern == "" then throw .empty
  let foldersOnly := pattern.toList.getLast? == some '/'
  let steps ← (Path.ofText pattern).names.mapM step
  if steps.isEmpty then throw (if foldersOnly then .slashOnly else .stepless)
  return { steps, foldersOnly }

/-- A path that a pattern names: its names below the folder, and the place it leads to. -/
structure Found where
  names : List String
  place : List String
deriving DecidableEq, Repr

/-- A path with one name more. -/
def Found.into (found : Found) (name : String) : Found where
  names := found.names ++ [name]
  place := found.place ++ [name]

/-- The entries of a folder. -/
def entriesAt (tree : FileTree) (place : List String) : List (String × FileTree) :=
  match tree.get? place with
  | some (.folder entries) => entries
  | _ => []

/-- Is an entry a folder? -/
def isFolder : FileTree → Bool
  | .folder _ => true
  | .file _ => false

/-- The paths that steps name, from a folder on. What is followed by a step has to be a folder. -/
def selectFrom (tree : FileTree) (foldersOnly : Bool) : List GlobStep → Found → List Found
  | [], here => [here]
  | step :: rest, here =>
    let fits (entry : FileTree) : Bool := isFolder entry || (rest.isEmpty && !foldersOnly)
    match step with
    | .name name =>
      match (entriesAt tree here.place).lookup name with
      | some entry => if fits entry then selectFrom tree foldersOnly rest (here.into name) else []
      | none => []
    | .above =>
      selectFrom tree foldersOnly rest ⟨here.names ++ [Path.above], here.place.dropLast⟩
    | .wild wildcard =>
      let chosen := (entriesAt tree here.place).filter fun (name, entry) =>
        fits entry && wildcard.stands name.toList
      chosen.flatMap fun (name, _) => selectFrom tree foldersOnly rest (here.into name)
    | .deep =>
      let below := ((tree.get? here.place).map FileTree.folders).getD []
      below.flatMap fun names =>
        selectFrom tree foldersOnly rest ⟨here.names ++ names, here.place ++ names⟩

/-- The paths that a pattern names below a folder. -/
def select (glob : Glob) (tree : FileTree) (place : List String) : List Found :=
  if tree.isFolderAt place then selectFrom tree glob.foldersOnly glob.steps ⟨[], place⟩ else []

end Glob

end DocTypes
