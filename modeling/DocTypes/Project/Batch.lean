import DocTypes.Project.Config
import DocTypes.Project.Discovery
import DocTypes.Project.Output
import DocTypes.Transform

/-!
# Batches

A batch transforms the files of a project, one by one. A file that fails is noted, and does not keep
the others from being transformed; what is wrong with the project itself ends the batch before its
first file.
-/

namespace DocTypes

/-- What a batch is to do. -/
structure BatchOptions where
  /-- the patterns of the files to take -/
  includes : Option (List String) := none
  /-- the patterns of the files to leave out -/
  excludes : Option (List String) := none
  hooks : Hooks := {}
  target : String := "tmp"
  config : String := "tsconfig.json"
  /-- the project's root; without one it is the working directory -/
  root : Option String := none
  /-- files to transform, whatever the patterns say -/
  files : List String := []

/-- Why a file failed. -/
inductive FileCause where
  | placing (fault : ProjectFault)
  | reading (fault : TextFault)
  | transforming (failure : Failure)
  | writing (fault : FileFault)

/-- The name of the kind of a cause. -/
def FileCause.kind : FileCause → String
  | .placing fault => fault.kind
  | .reading fault => fault.kind
  | .transforming failure => failure.kind
  | .writing fault => fault.kind

/-- What is reported of a cause. -/
def FileCause.message? : FileCause → Option String
  | .placing fault => fault.message?
  | .reading fault => fault.message?
  | .transforming failure => failure.message?
  | .writing fault => some fault.message

/-- The text of a kind and of a message, if there is one. -/
def describe (kind : String) : Option String → String
  | some message => kind ++ ": " ++ message
  | none => kind

/-- A file that failed. -/
structure FileFailure where
  path : String
  cause : FileCause

/-- The text of a failure. -/
def FileFailure.text (failure : FileFailure) : String :=
  failure.path ++ ": " ++ describe failure.cause.kind failure.cause.message?

/-- What became of a batch: the outputs that were written, and the files that failed, both in the
order of the files. -/
structure BatchResult where
  written : List String := []
  failures : List FileFailure := []

/-- A batch on its way: the directories it works in, and its hooks. -/
structure BatchPlace where
  workingDirectory : List String
  root : Path
  target : Path
  hooks : Hooks

namespace BatchOptions

/-- The root of a batch's project. -/
def rootPath (options : BatchOptions) (workingDirectory : List String) : Path :=
  match options.root with
  | some root => Path.ofText root
  | none => ⟨1, workingDirectory⟩

/-- Where a batch works. -/
def place (options : BatchOptions) (workingDirectory : List String) : BatchPlace :=
  let root := options.rootPath workingDirectory
  { workingDirectory, root, target := root.join (Path.ofText options.target),
    hooks := options.hooks }

/-- The patterns of a batch, from the options or else from the configuration. -/
def patterns (options : BatchOptions) (tree : FileTree) (place : BatchPlace) :
    Except ProjectFault Config :=
  match options.includes, options.excludes with
  | none, none =>
    Config.load tree place.workingDirectory (place.root.join (Path.ofText options.config)).text
  | includes, excludes => .ok { includes := includes.getD [], excludes := excludes.getD [] }

/-- The files of a batch. -/
def selected (options : BatchOptions) (tree : FileTree) (place : BatchPlace) :
    Except ProjectFault (List Path) := do
  if !options.files.isEmpty then
    return options.files.map fun file => place.root.join (Path.ofText file)
  let patterns ← options.patterns tree place
  if patterns.includes.isEmpty then throw (.config options.config .noIncludes)
  match tree.walk (place.root.base place.workingDirectory) place.root.names with
  | .error _ =>
    let _ ← ((patterns.excludes ++ patterns.includes).mapM Glob.read).mapError .pattern
    return []
  | .ok top =>
    let found ← (discover tree top patterns.includes patterns.excludes).mapError .pattern
    return found.map fun names => { place.root with names := place.root.names ++ names }

end BatchOptions

namespace BatchPlace

/-- The output of a file: its path and its text. Only the file itself is read for it. -/
def output (place : BatchPlace) (tree : FileTree) (path : Path) :
    Except FileCause (Path × String) := do
  let target ← (outputPath place.workingDirectory place.root place.target path).mapError .placing
  let source ← (tree.read place.workingDirectory path.text).mapError .reading
  let text ← (transform source place.hooks).result.mapError .transforming
  return (target, text)

/-- Transforms a file: gives the path of its output, and the files after it. -/
def transformFile (place : BatchPlace) (tree : FileTree) (path : Path) :
    Except FileCause String × FileTree :=
  match place.output tree path with
  | .error cause => (.error cause, tree)
  | .ok (target, text) =>
    let write := FileAction.write (target.base place.workingDirectory) text target.names.reverse
    match write.run.run tree with
    | (.error fault, tree) => (.error (.writing fault), tree)
    | (.ok (), tree) => (.ok target.text, tree)

/-- Transforms files, one after another. -/
def transformFiles (place : BatchPlace) : List Path → FileTree → BatchResult × FileTree
  | [], tree => ({}, tree)
  | path :: rest, tree =>
    let (result, tree) := place.transformFile tree path
    let (later, tree) := place.transformFiles rest tree
    match result with
    | .ok written => ({ later with written := written :: later.written }, tree)
    | .error cause => ({ later with failures := ⟨path.text, cause⟩ :: later.failures }, tree)

end BatchPlace

/-- Runs a batch. What is in the target directory is no input. -/
def BatchOptions.run (options : BatchOptions) (workingDirectory : List String) (tree : FileTree) :
    Except ProjectFault (BatchResult × FileTree) := do
  let place := options.place workingDirectory
  let paths ← options.selected tree place
  let inputs := paths.filter fun path => !path.isInside workingDirectory place.target
  return place.transformFiles inputs tree

end DocTypes
