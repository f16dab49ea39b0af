/-!
# Faults of access

Programs can be edited freely, so a part that is asked for may be missing or be something else than
what the asker can use. `AccessFault` lists what can go wrong.
-/

namespace DocTypes

/-- Why something cannot be had. -/
inductive AccessFault where
  /-- nothing there has this name -/
  | noAttribute
  /-- the list has no such place -/
  | noPlace
  /-- the table has no such entry -/
  | noEntry
  /-- what stands there cannot be used so -/
  | misfit
  /-- there are more or fewer items than are asked for -/
  | wrongCount
  /-- the number has too many digits to be written -/
  | tooLong
deriving DecidableEq, Repr

/-- The name of the kind of a fault. -/
def AccessFault.kind : AccessFault → String
  | .noAttribute => "AttributeError"
  | .noPlace => "IndexError"
  | .noEntry => "KeyError"
  | .misfit => "TypeError"
  | .wrongCount | .tooLong => "ValueError"

end DocTypes
