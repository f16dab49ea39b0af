import DocTypes.Project.Fault

/-!
# Places for outputs

The output for a file of a project goes below the target directory, at the place that the file has
below the project's root. A file outside of the root has no place, and no output may take the place
of its input.
-/

namespace DocTypes

/-- The path of the output for an input. -/
def outputPath (workingDirectory : List String) (root target path : Path) :
    Except ProjectFault Path :=
  match path.resolve? workingDirectory, root.resolve? workingDirectory with
  | some input, some top =>
    match Path.relativeTo? input top with
    | none => .error (.outside path.text)
    | some rest =>
      let output : Path := { target with names := target.names ++ rest }
      match output.resolve? workingDirectory with
      | none => .error .unspeakable
      | some place => if place == input then .error (.overwrites path.text) else .ok output
  | _, _ => .error (.outside path.text)

/-- Is a path in a directory, by the texts alone? -/
def Path.isInside (workingDirectory : List String) (path directory : Path) : Bool :=
  match path.resolve? workingDirectory, directory.resolve? workingDirectory with
  | some place, some top => (relativeTo? place top).isSome
  | _, _ => false

end DocTypes
