import DocTypes.Doc.Basic
import DocTypes.Source.Token
import DocTypes.Text.Lines
import DocTypes.TypeExpr.Arena

/-!
# Reading documentation comments

A comment is stripped of its gutter of asterisks, the lines up to the first tag are the
description, and every tag takes the lines up to the next. The types of tags go into the arena.
-/

namespace DocTypes

/-- A line of a comment without its gutter, and its number. -/
structure DocLine where
  text : List Char
  number : Nat
deriving Repr

/-- What the reader of comments hands on: the types so far, and the number of the next tag. -/
structure DocState where
  types : Arena := {}
  nextTag : Nat := 0

/-- A reader of comments. -/
abbrev DocReader := StateT DocState (Except TypeError)

namespace DocReader

/-- The tags after whose type a name stands. -/
def namedTags : List String :=
  ["arg", "argument", "callback", "class", "constant", "const", "event", "fires", "function",
   "func", "listens", "member", "memberof", "method", "name", "namespace", "param", "prop",
   "property", "template", "typedef", "var"]

/-- A line without the asterisk that opens it and one space after that. -/
def dropGutter (line : List Char) : List Char :=
  match line with
  | '*' :: ' ' :: rest => rest
  | '*' :: rest => rest
  | _ => line

/-- Items without those at either end for which `p` holds. -/
def dropEnds {α : Type} (p : α → Bool) (items : List α) : List α :=
  ((items.dropWhile p).reverse.dropWhile p).reverse

/-- The lines of a comment without gutters, and without blank lines at either end. -/
def contentLines (comment : Comment) : List DocLine :=
  let lines := (splitLines (comment.text.drop 1)).zipIdx.map fun (line, i) =>
    let text := trimStart (trimEnd line)
    ⟨if i == 0 then text else dropGutter text, comment.line + i⟩
  dropEnds (fun line : DocLine => isBlankText line.text) lines

/-- With `depth` brackets open: the text up to the one that closes the outermost, and what follows
it. -/
def closeAt (opening closing : Char) (depth : Nat) : List Char → Option (List Char × List Char)
  | [] => none
  | c :: rest =>
    if c == closing then
      if depth ≤ 1 then some ([], rest)
      else (closeAt opening closing (depth - 1) rest).map fun s => (c :: s.1, s.2)
    else
      let depth := if c == opening then depth + 1 else depth
      (closeAt opening closing depth rest).map fun s => (c :: s.1, s.2)

/-- A type in braces at the start of `text`, and what follows it. -/
def splitType? (text : List Char) : Option (List Char × List Char) :=
  match text with
  | '{' :: rest => closeAt '{' '}' 1 rest
  | _ => none

/-- The name at the start of `text`: a word, or all in square brackets. -/
def splitName (text : List Char) : List Char × List Char :=
  match text with
  | '[' :: rest =>
    match closeAt '[' ']' 1 rest with
    | some (inside, rest) => ('[' :: inside ++ [']'], rest)
    | none => (text, [])
  | _ => text.span fun c => !isBlank c

/-- A tag's name: the name itself, whether it is optional, and its default. -/
structure TagName where
  name : List Char
  optional : Bool := false
  defaultText : Option (List Char) := none

/-- What a name says. In square brackets it is optional, and an equals sign gives a default. -/
def readName (text : List Char) : TagName :=
  if text.head? == some '[' && text.getLast? == some ']' then
    let inner := (text.drop 1).dropLast
    match inner.span (· != '=') with
    | (name, '=' :: default) => ⟨trim name, true, some (trim default)⟩
    | (name, _) => ⟨trim name, true, none⟩
  else { name := text }

/-- The name at the start of a tag's text, if tags with this title have one, and what follows. -/
def takeName (title : String) (text : List Char) : TagName × List Char :=
  if namedTags.contains title then
    let text := if text.head? == some '\n' then trimStart text else text
    let (name, rest) := splitName text
    let rest := trimStartBy isIndent rest
    (readName name, match rest with
      | '-' :: ' ' :: rest => rest
      | rest => rest)
  else ({ name := [] }, text)

/-- Reads a tag's type and stores it. A blank type is not read. -/
def readType (title : String) (line : Nat) (text : List Char) : DocReader (Option Nat) := do
  if isBlankText text then return none
  let state ← get
  match state.types.readInto text line with
  | .ok (key, types) =>
    set { state with types }
    return some key
  | .error error =>
    throw { error with tag := some title, position := ⟨line, error.position.column⟩ }

/-- The type at the start of a tag's text: its text, its key, and what follows. -/
def takeType (title : String) (line : Nat) (text : List Char) :
    DocReader (List Char × Option Nat × List Char) := do
  match splitType? text with
  | none => return ([], none, text)
  | some (type, rest) =>
    let key ← readType title line type
    return (type, key, trimStartBy isIndent rest)

/-- The number of the next tag. -/
def freshTag : DocReader Nat := do
  let state ← get
  set { state with nextTag := state.nextTag + 1 }
  return state.nextTag

/-- Reads a tag from its lines, the first of which starts with `@`. -/
def readTag (owner : Nat) (first : DocLine) (later : List DocLine) : DocReader Tag := do
  let text := joinLines (first.text :: later.map DocLine.text)
  let (title, rest) := (text.drop 1).span fun c => !isBlank c && c != '{'
  let title := String.ofList title
  let (type, typeKey, rest) ← takeType title first.number (trimStartBy isIndent rest)
  let (name, rest) := takeName title rest
  return {
    id := ← freshTag
    title
    typeText := String.ofList type
    typeKey
    name := String.ofList name.name
    optional := name.optional
    defaultText := name.defaultText.map String.ofList
    description := (dropEnds isBlankText (splitLines rest)).map String.ofList
    line := first.number
    owner := some owner }

/-- Does a tag start with this line? -/
def startsTag (line : DocLine) : Bool :=
  line.text.head? == some '@'

/-- The sections of lines, each of which starts with a tag; a line before the first tag is passed
over. -/
def sections : List DocLine → List (DocLine × List DocLine)
  | [] => []
  | line :: rest =>
    if startsTag line then (line, rest.takeWhile fun l => !startsTag l) :: sections rest
    else sections rest

/-- Reads the block with the number `id` from a comment; where it stands is left open. -/
def readBlock (id : Nat) (comment : Comment) : DocReader Block := do
  let lines := contentLines comment
  let description := (lines.takeWhile fun line => !startsTag line).map DocLine.text
  let tags ← (sections lines).mapM fun (first, later) => readTag id first later
  return {
    tags
    description := (trimLines description).map String.ofList
    oneLine := !comment.text.contains '\n'
    line := comment.line }
where
  /-- Lines without blank ones at the end. -/
  trimLines (lines : List (List Char)) : List (List Char) :=
    (lines.reverse.dropWhile isBlankText).reverse

end DocReader

end DocTypes
