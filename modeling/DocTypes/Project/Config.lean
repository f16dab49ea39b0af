import DocTypes.Json.Reader
import DocTypes.Project.Fault

/-!
# Configuration

The configuration of a project is a JSON text, in which comments are allowed. It lists the patterns
of the files to take and of those to leave out.
-/

namespace DocTypes

/-- The patterns that a configuration lists. -/
structure Config where
  includes : List String
  excludes : List String
deriving DecidableEq, Repr

namespace Config

/-- The key of the patterns to take. -/
def includeKey : String := "_preprocess_include"

/-- The key of the patterns to leave out. -/
def excludeKey : String := "_preprocess_exclude"

/-- The texts of an array that has only texts. -/
def texts? : List Json → Option (List String)
  | [] => some []
  | .string text :: rest => (texts? rest).map (String.ofList text :: ·)
  | _ :: _ => none

/-- The patterns under a key: a list of texts, or one text. There are none when the key is not
there. -/
def patterns (members : List (List Char × Json)) (key : String) :
    Except ConfigCause (List String) :=
  match members.reverse.lookup key.toList with
  | none => .ok []
  | some (.string text) => .ok [String.ofList text]
  | some (.array items) =>
    match texts? items with
    | some texts => .ok texts
    | none => .error (.notPatterns key)
  | some _ => .error (.notPatterns key)

/-- Reads the text of a configuration. -/
def read (text : List Char) : Except ConfigCause Config :=
  match Json.read? (stripComments (plainBreaks text)) with
  | none => .error .notJson
  | some (.object members) => do
    return { includes := ← patterns members includeKey, excludes := ← patterns members excludeKey }
  | some _ => .error .notObject

/-- Reads the configuration in a file. -/
def load (tree : FileTree) (workingDirectory : List String) (path : String) :
    Except ProjectFault Config :=
  match tree.read workingDirectory path with
  | .error (.file fault) => .error (.config path (.unreadable fault))
  | .error fault => .error (.reading fault)
  | .ok text => (read text).mapError (.config path)

end Config

end DocTypes
