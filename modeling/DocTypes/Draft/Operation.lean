import DocTypes.Draft.Basic

/-!
# What values offer

Plain data have no attributes that an edit gave them, but they offer operations by name, and numbers
offer their parts. A path may ask for them like for attributes.
-/

namespace DocTypes

/-- The operations that texts offer. -/
def textOperations : List String :=
  ["capitalize", "casefold", "center", "count", "encode", "endswith", "expandtabs",
    "find", "format",
   "format_map", "index", "isalnum", "isalpha", "isascii", "isdecimal", "isdigit", "isidentifier",
   "islower", "isnumeric", "isprintable", "isspace", "istitle", "isupper", "join", "ljust", "lower",
   "lstrip", "maketrans", "partition", "removeprefix", "removesuffix", "replace", "rfind", "rindex",
   "rjust", "rpartition", "rsplit", "rstrip", "split", "splitlines", "startswith", "strip",
   "swapcase", "title", "upper", "zfill"]

/-- The operations that integers offer. -/
def integerOperations : List String :=
  ["as_integer_ratio", "bit_count", "bit_length", "conjugate", "from_bytes", "to_bytes"]

/-- The operations that floating-point numbers offer. -/
def floatOperations : List String :=
  ["as_integer_ratio", "conjugate", "fromhex", "hex", "is_integer"]

/-- The operations that lists offer. -/
def listOperations : List String :=
  ["append", "clear", "copy", "count", "extend", "index", "insert", "pop", "remove", "reverse",
   "sort"]

/-- The operations that tables offer. -/
def tableOperations : List String :=
  ["clear", "copy", "fromkeys", "get", "items", "keys", "pop", "popitem", "setdefault", "update",
   "values"]

/-- The operations that data without order offer. -/
def memberOperations : List String :=
  ["add", "clear", "copy", "difference", "difference_update", "discard", "intersection",
   "intersection_update", "isdisjoint", "issubset", "issuperset", "pop", "remove",
   "symmetric_difference", "symmetric_difference_update", "union", "update"]

/-- The operations that things with attributes offer. -/
def RecordSort.operations : RecordSort → List String
  | .arena => ["add", "get", "children", "reachable", "replace", "touched"]
  | .comment => ["is_jsdoc"]
  | _ => []

/-- An operation, if it is among those offered. -/
def offered (operations : List String) (name : String) : Option Datum :=
  if operations.contains name then some .operation else none

/-- What an integer offers under a name. -/
def integerAttribute? (value : Int) (name : String) : Option Datum :=
  match name with
  | "real" | "numerator" => some (.number (.int value))
  | "imag" => some (.number (.int 0))
  | "denominator" => some (.number (.int 1))
  | _ => offered integerOperations name

/-- What a floating-point number offers under a name. -/
def floatAttribute? (value : Binary64) (name : String) : Option Datum :=
  match name with
  | "real" => some (.number (.float value))
  | "imag" => some (.number (.float (Binary64.zero false)))
  | _ => offered floatOperations name

namespace Draft

/-- What a datum has under a name. -/
def get? (draft : Draft) (datum : Datum) (name : String) : Option Datum :=
  match datum with
  | .null | .operation => none
  | .bool value => integerAttribute? (if value then 1 else 0) name
  | .text _ | .decoded _ => offered textOperations name
  | .number (.int value) => integerAttribute? value name
  | .number (.float value) => floatAttribute? value name
  | .thing _ =>
    match draft.thing? datum with
    | some (.record sort attributes) =>
      (attributes.lookup name).or (offered sort.operations name)
    | some (.list _) => offered listOperations name
    | some (.table _) => offered tableOperations name
    | some (.members _) => offered memberOperations name
    | none => none

/-- What a datum has to have under a name. -/
def get (draft : Draft) (datum : Datum) (name : String) : Except AccessFault Datum :=
  match draft.get? datum name with
  | some value => .ok value
  | none => .error .noAttribute

/-- Does what a datum has under a name count as true? -/
def flag (draft : Draft) (datum : Datum) (name : String) : Except AccessFault Bool := do
  return draft.isTrue (← draft.get datum name)

/-- What stands in the list that a datum has under a name. -/
def itemsOf (draft : Draft) (datum : Datum) (name : String) : Except AccessFault (List Datum) := do
  draft.items (← draft.get datum name)

/-- The name of a thing's kind. -/
def kind? (draft : Draft) (datum : Datum) : Option String :=
  (draft.get? datum "type").bind Datum.text?

/-- Has an edit made the kind of a thing something that nothing can be looked up by? -/
def hasNoKind (draft : Draft) (datum : Datum) : Bool :=
  match (draft.get? datum "type").bind draft.thing? with
  | some (.list _) | some (.table _) | some (.members _) => true
  | _ => false

/-- Gives a thing another value under a name. Only what has attributes can be given one. -/
def assign (datum : Datum) (name : String) (value : Datum) (draft : Draft) :
    Except AccessFault Draft :=
  match datum, draft.thing? datum with
  | .thing ref, some (.record sort attributes) =>
    .ok (draft.put ref (.record sort (assignName name value attributes)))
  | _, _ => .error .noAttribute

end Draft

end DocTypes
