import DocTypes.Number.Numeral
import DocTypes.Text.Quoted

/-!
# Arguments of the command

The arguments are flags, some of them with a value after them, and the names of files. They are read
from the first to the last one, and the first fault counts; a flag that asks for help ends the
reading.
-/

namespace DocTypes

/-- What is wrong with the use of the command. -/
inductive UsageFault where
  | unknownFlag (flag : String)
  | noValue (flag : String)
  | notPositive (flag value : String)
  /-- digits that write no number -/
  | noNumber
  | notSingle
  | malformedHook (spec : String)
  /-- a module's name that begins with a dot, with nothing that it could be relative to -/
  | relativeModule
  | noModule (module missing : String)
  /-- a module that is looked for in one that holds no others -/
  | notPackage (module missing holder : String)
  | noMember (module member : String)
  | notCallable (purpose spec : String)
deriving DecidableEq, Repr

namespace UsageFault

/-- The name of the kind of a fault. -/
def kind : UsageFault → String
  | .noNumber => "ValueError"
  | .relativeModule => "TypeError"
  | _ => "UsageError"

/-- A name between quotes. -/
def named (name : String) : String :=
  String.ofList (quoted name.toList)

/-- What is reported of a fault. -/
def message? : UsageFault → Option String
  | .unknownFlag flag => some ("unknown flag '" ++ flag ++ "'")
  | .noValue flag => some (flag ++ " requires an argument")
  | .notPositive flag value =>
    some (flag ++ " expects a positive integer, got '" ++ value ++ "'")
  | .notSingle => some "--stdout needs exactly one FILE"
  | .malformedHook spec => some ("hook must look like MODULE:FUNCTION, got '" ++ spec ++ "'")
  | .noModule module missing =>
    some ("cannot import hook module '" ++ module ++ "': No module named " ++ named missing)
  | .notPackage module missing holder =>
    some ("cannot import hook module '" ++ module ++ "': No module named " ++
      named missing ++ "; " ++
      named holder ++ " is not a package")
  | .noMember module member => some ("module '" ++ module ++ "' has no '" ++ member ++ "'")
  | .notCallable purpose spec => some (purpose ++ " hook '" ++ spec ++ "' is not callable")
  | .noNumber | .relativeModule => none

end UsageFault

/-- A flag. -/
inductive Flag where
  | help
  | includes
  | excludes
  | config
  | target
  | classHook
  | paramHook
  | toOutput
  | jobs
  | verbose
deriving DecidableEq, Repr

/-- The flag that an argument writes. -/
def Flag.ofText? : String → Option Flag
  | "--help" | "-h" => some .help
  | "--include" => some .includes
  | "--ignore" => some .excludes
  | "--config" => some .config
  | "-o" | "--out-dir" => some .target
  | "--class-hook" => some .classHook
  | "--param-hook" => some .paramHook
  | "-j" | "--jobs" => some .jobs
  | "--stdout" => some .toOutput
  | "--verbose" => some .verbose
  | _ => none

/-- What the arguments ask for. -/
structure Arguments where
  includes : List String := []
  excludes : List String := []
  config : String := "tsconfig.json"
  target : String := "tmp"
  classHook : Option String := none
  paramHook : Option String := none
  /-- is the single file's output printed? -/
  toOutput : Bool := false
  jobs : Option Nat := none
  verbose : Bool := false
  files : List String := []
deriving DecidableEq, Repr

namespace Arguments

/-- The number of jobs that a value writes: digits of any script, and not zero. -/
def jobCount (flag value : String) : Except UsageFault Nat :=
  if value == "" || !value.toList.all isDigitLike then .error (.notPositive flag value)
  else
    match Numeral.int? 10 value.toList with
    | none => .error .noNumber
    | some count => if count < 1 then .error (.notPositive flag value) else .ok count.toNat

/-- The arguments with the value of a flag. -/
def store (arguments : Arguments) (flag : Flag) (written value : String) :
    Except UsageFault Arguments :=
  match flag with
  | .includes => .ok { arguments with includes := arguments.includes ++ [value] }
  | .excludes => .ok { arguments with excludes := arguments.excludes ++ [value] }
  | .config => .ok { arguments with config := value }
  | .target => .ok { arguments with target := value }
  | .classHook => .ok { arguments with classHook := some value }
  | .paramHook => .ok { arguments with paramHook := some value }
  | .jobs => do return { arguments with jobs := some (← jobCount written value) }
  | .help | .toOutput | .verbose => .ok arguments

/-- Reads the arguments that are left. There are none in the end if help is asked for. -/
def readFrom (arguments : Arguments) : List String → Except UsageFault (Option Arguments)
  | [] =>
    if arguments.toOutput && arguments.files.length != 1 then .error .notSingle
    else .ok (some arguments)
  | written :: rest =>
    match Flag.ofText? written with
    | some .help => .ok none
    | some .toOutput => readFrom { arguments with toOutput := true } rest
    | some .verbose => readFrom { arguments with verbose := true } rest
    | some flag =>
      match rest with
      | [] => .error (.noValue written)
      | value :: rest =>
        match arguments.store flag written value with
        | .ok arguments => readFrom arguments rest
        | .error fault => .error fault
    | none =>
      if written.toList.head? == some '-' && written != "-" then .error (.unknownFlag written)
      else readFrom { arguments with files := arguments.files ++ [written] } rest

/-- Reads arguments. -/
def read (arguments : List String) : Except UsageFault (Option Arguments) :=
  readFrom {} arguments

end Arguments

end DocTypes
