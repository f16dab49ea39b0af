import DocTypes.Project.Fault

/-!
# Finding files

The files of a project are those that a pattern names and no other pattern leaves out. A pattern
that names a folder leaves out all that is in it. The files are given in the order of their paths,
each of them once.
-/

namespace DocTypes

/-- The paths that patterns name below a folder. -/
def globAll (tree : FileTree) (place : List String) (patterns : List String) :
    Except GlobFault (List Glob.Found) := do
  let globs ← patterns.mapM Glob.read
  return globs.flatMap fun glob => glob.select tree place

/-- Is a path, or a folder that holds it, among those left out? -/
def isLeftOut (leftOut : List (List String)) (names : List String) : Bool :=
  (List.range (names.length + 1)).any fun length => leftOut.contains (names.take length)

/-- Names in the order of their paths, each of them once. -/
def sortPaths (paths : List (List String)) : List (List String) :=
  let text (names : List String) : String := "/".intercalate names
  (paths.mergeSort fun a b => text a ≤ text b).eraseReps

/-- The files below a folder that the patterns `includes` name and the patterns `excludes` do not
leave out, by their names below the folder. -/
def discover (tree : FileTree) (place : List String) (includes excludes : List String) :
    Except GlobFault (List (List String)) := do
  let leftOut := (← globAll tree place excludes).map Glob.Found.names
  let found := (← globAll tree place includes).filter fun found =>
    tree.isFileAt found.place && !isLeftOut leftOut found.names
  return sortPaths (found.map Glob.Found.names)

end DocTypes
