import DocTypes.Failure

/-!
# Transforming a source

The way of one source through the library: it is read, the passes are run, and it is printed. The
output is to be written to a file, which holds nothing but characters.
-/

namespace DocTypes

/-- What a transformation came to, and the calls of hooks on the way, in their order. -/
structure Outcome where
  result : Except Failure String
  calls : List HookCall := []

/-- Transforms a source. -/
def transform (source : List Char) (hooks : Hooks := {}) : Outcome :=
  match Program.read source with
  | .error fault => { result := .error (.reading fault) }
  | .ok program =>
    let (result, state) := (Pass.all hooks).run.run { program }
    let calls := state.calls.reverse
    match result with
    | .error fault => { result := .error (.pass fault), calls }
    | .ok () =>
      let printed := (state.program.generate (some source)).mapError .printing
      { result := printed.bind fun text => text.string?.elim (.error .encoding) .ok, calls }

end DocTypes
