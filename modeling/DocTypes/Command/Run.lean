import DocTypes.Command.HookLibrary
import DocTypes.Project.Batch

/-!
# The command

One run of the command on a tree of files: it reads its arguments, transforms the files they ask
for, and gives what it prints, its exit code and the files after it. Some faults are not reported by
the command but end it; they are its faults here.
-/

namespace DocTypes

/-- The name of the command. -/
def commandName : String := "js2ts"

/-- The help text of the command. -/
def usage : String :=
  "js2ts [OPTIONS] [FILE...]\n\n" ++
  "Promote JSDoc-only types: inline @local typedefs and synthesize typedefs for\n" ++
  "@export class expressions. Output for <root>/<path> goes to <out-dir>/<path>.\n\n" ++
  "Options:\n" ++
  "  --include PAT         Glob of files to transform (repeatable)\n" ++
  "  --ignore PAT          Glob of files to skip (repeatable)\n" ++
  "  --config FILE         Read _preprocess_include/_preprocess_exclude from FILE\n" ++
  "                        when no --include/--ignore is given (default tsconfig.json)\n" ++
  "  -o, --out-dir DIR     Output root (default tmp)\n" ++
  "  --class-hook MOD:FN   Strategy choosing the merged supertype name\n" ++
  "  --param-hook MOD:FN   Strategy choosing a parameter's rendered type\n" ++
  "  --stdout              Print the single FILE's output instead of writing it\n" ++
  "  -j, --jobs N          Worker threads\n" ++
  "  --verbose             Report every written file\n" ++
  "  --help                Show this help message\n"

/-- What a run came to. -/
structure RunResult where
  exit : Nat
  output : String := ""
  /-- the lines that are reported -/
  reports : List String := []
  tree : FileTree

/-- What ends a run. -/
inductive RunFault where
  | usage (fault : UsageFault)
  | project (fault : ProjectFault)
  | reading (fault : TextFault)
deriving DecidableEq, Repr

/-- The name of the kind of a fault. -/
def RunFault.kind : RunFault → String
  | .usage fault => fault.kind
  | .project fault => fault.kind
  | .reading fault => fault.kind

namespace Arguments

/-- The hooks that arguments name. -/
def hooks (arguments : Arguments) (library : HookLibrary) : Except UsageFault Hooks := do
  let classHook ← arguments.classHook.mapM fun spec => library.classHook spec
  let paramHook ← arguments.paramHook.mapM fun spec => library.paramHook spec
  return { classHook := classHook.bind Offer.hook?, paramHook := paramHook.bind Offer.hook? }

/-- The batch that arguments ask for. Patterns among them go before the configuration. -/
def batch (arguments : Arguments) (hooks : Hooks) : BatchOptions :=
  let given := !arguments.includes.isEmpty || !arguments.excludes.isEmpty
  { includes := if given then some arguments.includes else none
    excludes := if given then some arguments.excludes else none
    hooks
    target := arguments.target
    config := arguments.config
    files := arguments.files }

end Arguments

/-- A run as it starts: where it is, and what it finds there. -/
structure Run where
  library : HookLibrary := []
  workingDirectory : List String
  tree : FileTree

namespace Run

/-- A run that ends with reports and does nothing to the files. -/
def stop (run : Run) (exit : Nat) (reports : List String) : RunResult :=
  { exit, reports, tree := run.tree }

/-- Prints the output for one file. -/
def printFile (run : Run) (path : String) (hooks : Hooks) : Except RunFault RunResult :=
  match run.tree.read run.workingDirectory path with
  | .error (.file fault) => .ok (run.stop 1 [path ++ ": cannot open: " ++ fault.text])
  | .error fault => .error (.reading fault)
  | .ok source =>
    match (transform source hooks).result with
    | .error failure => .ok (run.stop 1 [path ++ ": " ++ describe failure.kind failure.message?])
    | .ok output => .ok { exit := 0, output, tree := run.tree }

/-- The reports of a batch. -/
def batchReports (result : BatchResult) (verbose : Bool) : List String :=
  (if verbose then result.written.map ("wrote " ++ ·) else []) ++
    result.failures.map FileFailure.text ++
    (if result.failures.isEmpty then []
    else [toString result.written.length ++ " written, " ++
      toString result.failures.length ++ " failed"])

/-- Runs a batch. -/
def runBatch (run : Run) (options : BatchOptions) (verbose : Bool) : Except RunFault RunResult :=
  match options.run run.workingDirectory run.tree with
  | .error fault =>
    if fault.isReported then .ok (run.stop 2 ["error: " ++ fault.message?.getD ""])
    else .error (.project fault)
  | .ok (result, tree) =>
    .ok { exit := if result.failures.isEmpty then 0 else 1
          reports := batchReports result verbose
          tree }

/-- Reports a fault in the use of the command, if it is one to report. -/
def usageFault (run : Run) (fault : UsageFault) : Except RunFault RunResult :=
  match fault.message? with
  | some message => .ok (run.stop 2 ["error: " ++ message])
  | none => .error (.usage fault)

/-- Runs the command. -/
def command (run : Run) (arguments : List String) : Except RunFault RunResult :=
  match Arguments.read arguments with
  | .error fault => run.usageFault fault
  | .ok none => .ok { exit := 0, output := usage, tree := run.tree }
  | .ok (some arguments) =>
    match arguments.hooks run.library with
    | .error fault => run.usageFault fault
    | .ok hooks =>
      match arguments.toOutput, arguments.files with
      | true, path :: _ => run.printFile path hooks
      | _, _ => run.runBatch (arguments.batch hooks) arguments.verbose

end Run

/-- The text of the reports of a run. -/
def RunResult.errors (result : RunResult) : String :=
  String.join (result.reports.map fun report => commandName ++ ": " ++ report ++ "\n")

end DocTypes
