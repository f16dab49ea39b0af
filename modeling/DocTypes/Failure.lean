import DocTypes.Pass.ClassTypes
import DocTypes.Print.Source
import DocTypes.Program.Editable

/-!
# Failures

All that can go wrong with one source, under one type: each failure has the name of its kind, by
which it is reported, and most have a message.
-/

namespace DocTypes

/-- The name of the kind of a literal's fault. -/
def LiteralFault.kind : LiteralFault → String
  | .codeTooLarge => "OverflowError"
  | .notANumeral | .openEscape | .noCodePoint => "ValueError"

/-- The name of the kind of a fault in a source. -/
def ProgramFault.kind : ProgramFault → String
  | .lexing _ => "TokenizeError"
  | .reading (.grammar _ _) => "ParseError"
  | .reading (.literal fault) => fault.kind
  | .reading .namelessKey => "AttributeError"
  | .reading .pastEnd => "IndexError"
  | .reading .stalled => "RecursionError"
  | .typing _ => "TypeParseError"

/-- What is reported of a fault in a source. -/
def ProgramFault.message? : ProgramFault → Option String
  | .lexing error => some error.message
  | .reading (.grammar cause position) => some (position.locate cause.text)
  | .reading _ => none
  | .typing error => some error.message

/-- The name of the kind of a printing fault. -/
def PrintFault.kind : PrintFault → String
  | .noPrinter _ | .noForm _ => "ValueError"
  | .noText => "TypeError"
  | .access fault => fault.kind

/-- What is reported of a printing fault. -/
def PrintFault.message? : PrintFault → Option String
  | .noPrinter kind => some ("no handler for " ++ kind.getD "None")
  | .noForm kind => some ("cannot generate " ++ kind)
  | .noText | .access _ => none

/-- What went wrong with a source. -/
inductive Failure where
  | reading (fault : ProgramFault)
  | pass (fault : PassFault)
  | printing (fault : PrintFault)
  /-- what was printed is not made of characters -/
  | encoding

/-- The name of the kind of a failure. -/
def Failure.kind : Failure → String
  | .reading fault => fault.kind
  | .pass fault => fault.kind
  | .printing fault => fault.kind
  | .encoding => "UnicodeEncodeError"

/-- What is reported of a failure. -/
def Failure.message? : Failure → Option String
  | .reading fault => fault.message?
  | .pass fault => fault.message?
  | .printing fault => fault.message?
  | .encoding => none

end DocTypes
