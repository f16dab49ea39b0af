import DocTypes.Command.Run

/-!
# The program

The outermost layer: it takes the files of the working directory into a tree, runs the command on
it, prints what the command prints, and writes the files that the command changed.
-/

namespace DocTypes

/-- An entry of a folder, with all that is in it. What cannot be read counts as an empty file. -/
partial def loadEntry (entry : IO.FS.DirEntry) : IO (String × FileTree) := do
  if ← entry.path.isDir then
    let entries ← try entry.path.readDir catch _ => pure #[]
    return (entry.fileName, .folder (← entries.toList.mapM loadEntry))
  else
    let bytes ← try IO.FS.readBinFile entry.path catch _ => pure ByteArray.empty
    return (entry.fileName, .file bytes)

/-- The tree with the files that arguments name and that are not in the working directory. -/
def loadNamed (workingDirectory : List String) (arguments : List String) (tree : FileTree) :
    IO FileTree :=
  arguments.foldlM (fun tree argument => do
    match (Path.ofText argument).resolve? workingDirectory with
    | none => return tree
    | some place =>
      if (tree.get? place).isSome then return tree
      try return tree.put place (.file (← IO.FS.readBinFile ("/" ++ "/".intercalate place)))
      catch _ => return tree) tree

/-- Writes the files of a tree that another tree does not have. -/
def writeChanges (before after : FileTree) : IO Unit := do
  for (place, content) in after.leaves do
    let path := "/" ++ "/".intercalate place
    match content, before.get? place with
    | none, some _ => pure ()
    | none, none => IO.FS.createDirAll path
    | some bytes, some (.file old) =>
      if old.data != bytes.data then IO.FS.writeBinFile path bytes
    | some bytes, _ =>
      IO.FS.createDirAll ("/" ++ "/".intercalate place.dropLast)
      IO.FS.writeBinFile path bytes

end DocTypes

open DocTypes in
/-- Runs the command on the files of the working directory. -/
def main (arguments : List String) : IO UInt32 := do
  let here ← IO.currentDir
  let workingDirectory := (Path.ofText here.toString).names
  let entries ← (← here.readDir).toList.mapM loadEntry
  let inside := (FileTree.folder []).put workingDirectory (.folder entries)
  let tree ← loadNamed workingDirectory arguments inside
  match ({ workingDirectory, tree : Run }).command arguments with
  | .error fault =>
    IO.eprintln (commandName ++ ": " ++ fault.kind)
    return 1
  | .ok result =>
    IO.print result.output
    IO.eprint result.errors
    writeChanges tree result.tree
    return UInt32.ofNat result.exit
