import DocTypes.Pass.Hooks

/-!
# Local typedefs

A block with a tag `@local` and a tag `@typedef` gives a type a name that is only good in this file.
`Pass.inlineTypedefs` puts the type in the place of the name wherever it stands in the file's
documentation, and drops the tag. `Pass.removeLocals` then unregisters the blocks that are left with
nothing but `@local`.
-/

namespace DocTypes.Pass

/-- Selects the typedefs that stand in a block with `@local`. -/
def localTypedefs : String :=
  "DocBlock:has(> DocTag[tag=\"local\"]) > DocTag[tag=\"typedef\"]"

/-- Selects the blocks that hold tags, and only `@local`. -/
def localOnly : String :=
  "DocBlock:has(> DocTag[tag=\"local\"]):not(:has(> DocTag[tag!=\"local\"]))"

/-- Selects the references to a named type. -/
def references (name : String) : String :=
  "TypeName[value=\"" ++ name ++ "\"]"

variable {σ α κ : Type} [Editable σ α κ]

/-- A tag that names a type, and what it says. -/
structure Typedef (α κ : Type) extends TypedefFacts κ where
  tag : α

/-- The typedefs among tags. No two may have the same name, those in `seen` included. -/
def typedefsFrom : List (Typedef α κ) → List α → Pass σ (List (Typedef α κ))
  | _, [] => return []
  | seen, tag :: rest => do
    match ← ask fun program => Editable.typedef? program tag with
    | none => typedefsFrom seen rest
    | some facts =>
      match seen.find? fun earlier => earlier.name == facts.name with
      | some earlier =>
        let first ← ask fun program => Editable.line program earlier.tag
        throw (.ambiguous facts.name first (← ask fun program => Editable.line program tag))
      | none =>
        let typedef : Typedef α κ := { facts with tag }
        return typedef :: (← typedefsFrom (typedef :: seen) rest)

/-- The local typedefs in the order of the document. No two may have the same name. -/
def findTypedefs : Pass σ (List (Typedef α κ)) := do
  typedefsFrom [] (← query localTypedefs)

/-- Puts the typedef's type in the place of references to it. A type that refers to itself is not
possible. -/
def replaceAll [BEq κ] (typedef : Typedef α κ) (own : List κ) : List α → Pass σ Unit
  | [] => return
  | reference :: rest => do
    let key ← ask fun program => Editable.keyOf program reference
    if own.contains key then
      let line ← ask fun program => Editable.line program typedef.tag
      throw (.shape (.recursiveTypedef typedef.name) (lineStart? line))
    change (Editable.replaceType key typedef.key)
    replaceAll typedef own rest

/-- Inlines one typedef and drops its tag. The answer is the number of references to it. -/
def inlineTypedef [BEq κ] (typedef : Typedef α κ) : Pass σ Nat := do
  if !typedef.isText then throw (.access .misfit)
  let references ← query (references typedef.name)
  let own ← ask fun program => Editable.reachable program typedef.key
  replaceAll typedef own references
  change (Editable.removeTag typedef.tag)
  return references.length

/-- Inlines all local typedefs. The answer is the number of references to them. -/
def inlineTypedefs [BEq κ] : Pass σ Nat := do
  return (← (← findTypedefs).mapM inlineTypedef).foldl (· + ·) 0

/-- Unregisters the blocks that hold nothing but `@local`. The nodes they belong to keep them. The
answer is the number of blocks. -/
def removeLocals : Pass σ Nat := do
  match ← query localOnly with
  | [] => return 0
  | doomed => perform fun program => (Editable.unregister doomed program).mapError .access

end DocTypes.Pass
