import DocTypes.Program.Basic
import DocTypes.Proofs.Except
import DocTypes.Proofs.Lexing.Respace
import DocTypes.Proofs.Text.CodePoint

/-!
# Lexing texts of code points

A text of code points is lexed as it is seen, and the strings among its tokens get their code points
back (`Token.exists_restore`). If it is made of characters, nothing is to be given back: the text is
read like any source (`Program.readText?_ofChars`).
-/

namespace DocTypes

open List

/-- How a token with this text is spelled. -/
def Text.spelling (text : Text) : Spelling where
  text := String.ofList text.chars
  points? := if text.points.all isScalar then none else some text.points

/-- The code points of a token that is spelled so. -/
def Spelling.points (spelling : Spelling) : List Nat :=
  spelling.points?.getD (codePoints spelling.text.toList)

@[simp]
theorem Text.points_spelling (text : Text) : text.spelling.points = text.points := by
  rw [Spelling.points, spelling]
  split
  case isTrue h =>
    rw [Option.getD_none, String.toList_ofList]
    exact codePoints_map_shownChar h
  case isFalse => rfl

/-- A token of the kind is spelled so in some text. -/
structure Spelling.Exact (spelling : Spelling) (kind : TokenKind) : Prop where
  spelled : (⟨spelling.points⟩ : Text).spelling = spelling
  kind : spelling.points.all isScalar = true ∨ kind = .string

/-- A token gets the code points back that it has in the text. -/
theorem Token.exists_restore {text : Text} {token : Token} {spelling : Spelling}
    (hpoints : token.span.points text = spelling.points)
    (hword : token.word = (token.kind, ↑spelling.text)) (hexact : spelling.Exact token.kind) :
    ∃ token', token.restore text = some token' ∧ token'.word = (token.kind, spelling) ∧
      token'.span = token.span := by
  have hspelled := congrArg Spelling.points? hexact.spelled
  have hfull : ∀ points?, points? = spelling.points? →
      ((token.kind, ⟨spelling.text, points?⟩) : TokenKind × Spelling) = (token.kind, spelling) := by
    rintro _ rfl
    rfl
  rw [restore, hpoints]
  by_cases hscalar : spelling.points.all isScalar = true
  · refine ⟨token, if_pos hscalar, hword.trans (hfull _ ?_), rfl⟩
    exact (if_pos hscalar).symm.trans hspelled
  · refine ⟨{ token with points? := some spelling.points }, ?_, ?_, rfl⟩
    · rw [if_neg hscalar, if_pos (beq_iff_eq.2 (hexact.kind.resolve_left hscalar))]
    · rw [Token.word, show token.text = spelling.text from congrArg (·.2.text) hword]
      exact hfull _ ((if_neg hscalar).symm.trans hspelled)

/-- A text is taken apart as it is seen, if its tokens get their code points back. -/
theorem lexText?_eq_some {text : Text} {lexed : Lexed} {tokens : List Token}
    (hlex : lex text.chars = .ok lexed)
    (hcomments : ∀ comment ∈ lexed.comments, (comment.span.points text).all isScalar = true)
    (htokens : lexed.tokens.mapM (Token.restore text) = some tokens) :
    lexText? text = some { lexed with tokens } := by
  rw [lexText?, hlex]
  change (guard _ >>= fun _ => lexed.tokens.mapM (Token.restore text) >>= _) = _
  rw [guard, if_pos (all_eq_true.2 hcomments), htokens]
  rfl

section
variable (chars : List Char)

theorem all_isScalar_points (span : Span) :
    (span.points (.ofChars chars)).all isScalar = true :=
  all_eq_true.2 fun point hmem => all_eq_true.1 (all_isScalar_codePoints chars) point
    (mem_of_mem_drop (mem_of_mem_take hmem))

/-- A text of characters is lexed as they are. -/
theorem lexText?_ofChars : lexText? (.ofChars chars) = (lex chars).toOption := by
  cases hlex : lex chars with
  | error error =>
    rw [lexText?, Text.chars_ofChars, hlex]
    rfl
  | ok lexed =>
    have hrestore : Token.restore (.ofChars chars) = some :=
      funext fun token => if_pos (all_isScalar_points chars token.span)
    refine lexText?_eq_some (by rw [Text.chars_ofChars, hlex])
      (fun comment _ => all_isScalar_points chars comment.span) ?_
    rw [hrestore, mapM_eq_some]

/-- A text of characters is read as they are. -/
theorem Program.readText?_ofChars :
    Program.readText? (.ofChars chars) = (Program.read chars).toOption := by
  rw [readText?, lexText?_ofChars, Text.chars_ofChars, read]
  cases lex chars <;> rfl

end

end DocTypes
