import DocTypes.Project.Glob

/-!
# Faults of a project

What can be wrong with a project: its configuration, its patterns, or the place for an output. The
faults of the configuration and of outputs are worded; the others are known by their kind.
-/

namespace DocTypes

/-- What is wrong with a configuration. -/
inductive ConfigCause where
  | unreadable (fault : FileFault)
  | notJson
  | notObject
  | notPatterns (key : String)
  | noIncludes
deriving DecidableEq, Repr

/-- The wording of a cause. -/
def ConfigCause.text : ConfigCause → String
  | .unreadable fault => "cannot read config: " ++ fault.text
  | .notJson => "invalid JSON"
  | .notObject => "config root must be an object"
  | .notPatterns key => "'" ++ key ++ "' must be a list of strings"
  | .noIncludes => "no include patterns"

/-- What is wrong with a project. -/
inductive ProjectFault where
  | config (path : String) (cause : ConfigCause)
  /-- the configuration cannot be read for another reason than its file's state -/
  | reading (fault : TextFault)
  | pattern (fault : GlobFault)
  /-- an input is outside of the project -/
  | outside (path : String)
  /-- an output has the place of its input -/
  | overwrites (path : String)
  /-- the place for an output has a name that no file can have -/
  | unspeakable
deriving DecidableEq, Repr

namespace ProjectFault

/-- The name of the kind of a fault. -/
def kind : ProjectFault → String
  | .config _ _ => "ConfigError"
  | .reading fault => fault.kind
  | .pattern (.absolute _) | .outside _ | .overwrites _ => "OutputError"
  | .pattern .empty | .pattern .deepInName | .unspeakable => "ValueError"
  | .pattern .stepless => "IndexError"
  | .pattern .slashOnly => "AttributeError"

/-- What is reported of a fault. -/
def message? : ProjectFault → Option String
  | .config path cause => some (path ++ ": " ++ cause.text)
  | .reading fault => fault.message?
  | .pattern (.absolute text) =>
    some (text ++ ": patterns must be relative to the project root")
  | .outside path => some (path ++ ": input is outside the project root")
  | .overwrites path => some (path ++ ": output would overwrite its input")
  | .pattern _ | .unspeakable => none

/-- Is a fault one that the command line reports? -/
def isReported : ProjectFault → Bool
  | .config _ _ | .pattern (.absolute _) | .outside _ | .overwrites _ => true
  | .reading _ | .pattern _ | .unspeakable => false

end ProjectFault

end DocTypes
