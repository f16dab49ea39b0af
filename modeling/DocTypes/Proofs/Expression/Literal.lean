import DocTypes.Print.Expression
import DocTypes.Proofs.Lexing.Ends
import DocTypes.Proofs.Lexing.Restore
import Mathlib.Data.List.Basic

/-!
# Constants and how they are written

A literal that was not read from a text is printed with one that is made from its value. For a
string this is a token that spells the value (`quote_spells`), whatever code points it holds
(`lex_quote`).
-/

namespace DocTypes

open List Numeral

/-- The value of a literal: the code points of a string, or an integer. -/
inductive Constant where
  | string (points : List Nat)
  | integer (value : Nat)
deriving DecidableEq

namespace Constant

/-- The kind of token that spells a constant. -/
def kind : Constant → TokenKind
  | .string _ => .string
  | .integer _ => .number

/-- A token's text spells the constant. -/
structure IsSpelling (constant : Constant) (text : Text) : Prop where
  token : IsToken [] false constant.kind text.chars []
  reads : match constant with
    | .string points => stringValue text.points = .ok points
    | .integer value => ∃ chars, text = .ofChars chars ∧ numberValue chars = .ok (.int value)

/-- The token is spelled as its text is. -/
theorem IsSpelling.exact {constant : Constant} {text : Text} (h : constant.IsSpelling text) :
    text.spelling.Exact constant.kind := by
  constructor <;> rw [Text.points_spelling]
  cases constant with
  | string points => exact .inr rfl
  | integer n =>
    obtain ⟨chars, rfl, -⟩ := h.reads
    exact .inl (all_isScalar_codePoints chars)

end Constant

/-! ## Strings -/

/-- The code of a control character in two hexadecimal digits. -/
theorem escapedCode_hexPair : ∀ n < 32, escapedCode (quotePoint.hexPair n) = .ok n := by
  decide

/-- The characters that are quoted by a backslash and one other character. -/
def escapedChars : List Char :=
  ['\n', '\r', '\t', '\\', '\'']

section
variable {point : Nat} (h : point ∉ codePoints escapedChars)
include h

/-- Any other code point is quoted by its number if it is a control character, and else stays as it
is. -/
theorem quotePoint_of_notMem : quotePoint point =
    if point < 32 then codePoints ('\\' :: 'x' :: quotePoint.hexPair point) else [point] := by
  simp only [escapedChars, codePoints, map_cons, map_nil, mem_cons, not_mem_nil, or_false,
    not_or, ← beq_eq_false_iff_ne] at h
  obtain ⟨hfeed, hreturn, htab, hslash, hquote⟩ := h
  simp only [quotePoint, hfeed, hreturn, htab, hslash, hquote, Bool.false_eq_true, if_false]

/-- It is seen as a character that is not escaped. -/
theorem shownChar_notMem : shownChar point ∉ escapedChars := by
  intro hmem
  have hshown : '\uFFFD' ∉ escapedChars := by decide
  have hne : shownChar point ≠ '\uFFFD' := fun heq => hshown (heq ▸ hmem)
  exact h (mem_map.2 ⟨_, hmem, (eq_toNat_of_shownChar rfl hne).symm⟩)

end

theorem quotePoint_ne_nil (point : Nat) : quotePoint point ≠ [] := by
  unfold quotePoint
  split_ifs <;> exact cons_ne_nil _ _

/-- A code point that starts no escape is decoded to itself. -/
theorem decodeString_cons {point : Nat} (h : shownChar point ≠ '\\') (fuel : Nat)
    (rest : List Nat) :
    decodeString (fuel + 1) (point :: rest) = (decodeString fuel rest).map (point :: ·) := by
  cases rest with
  | nil => cases fuel <;> rfl
  | cons next later =>
    rw [decodeString, if_neg (by simpa using h)]
    rfl

/-- A quoted code point is decoded to itself. -/
theorem decodeString_quotePoint (fuel point : Nat) (rest : List Nat) :
    decodeString (fuel + 1) (quotePoint point ++ rest) =
      (decodeString fuel rest).map (point :: ·) := by
  by_cases hescaped : point ∈ codePoints escapedChars
  · simp only [escapedChars, codePoints, map_cons, map_nil, mem_cons, not_mem_nil,
      or_false] at hescaped
    rcases hescaped with rfl | rfl | rfl | rfl | rfl <;> rfl
  rw [quotePoint_of_notMem hescaped]
  split
  case isTrue hcontrol =>
    have hcode := escapedCode_hexPair point hcontrol
    change (decodeEscape 'x'.toNat (codePoints (quotePoint.hexPair point) ++ rest) >>= _) = _
    have hescape : decodeEscape 'x'.toNat (codePoints (quotePoint.hexPair point) ++ rest) =
        .ok ([point], rest) := by
      change (do return ([← escapedCode [shownChar _, shownChar _]], rest)) = _
      rw [shownChar_toNat, shownChar_toNat]
      change (escapedCode (quotePoint.hexPair point) >>= _) = _
      rw [hcode]
      rfl
    rw [hescape]
    rfl
  case isFalse =>
    refine decodeString_cons (fun hslash => ?_) fuel rest
    exact shownChar_notMem hescaped (by rw [hslash]; decide)

/-- A quoted string is decoded to itself. -/
theorem decodeString_quoted (points : List Nat) :
    ∀ fuel, (points.flatMap quotePoint).length ≤ fuel →
      decodeString fuel (points.flatMap quotePoint) = .ok points := by
  induction points with
  | nil =>
    intro fuel _
    cases fuel <;> rfl
  | cons point rest ih =>
    intro fuel hfuel
    have hpoint : 0 < (quotePoint point).length := length_pos_of_ne_nil (quotePoint_ne_nil point)
    rw [flatMap_cons, length_append] at hfuel
    obtain ⟨fuel, rfl⟩ : ∃ less, fuel = less + 1 := ⟨fuel - 1, by omega⟩
    rw [flatMap_cons, decodeString_quotePoint, ih fuel (by omega)]
    rfl

/-- A literal that was made of a string has the string for its value. -/
theorem stringValue_quote (points : List Nat) : stringValue (quote points) = .ok points := by
  have hinside : ((quote points).drop 1).dropLast = points.flatMap quotePoint := by
    rw [quote, cons_append, drop_one, tail_cons, dropLast_concat]
  rw [stringValue, hinside]
  exact decodeString_quoted points _ (Nat.le_refl _)

/-- A scanner of strings passes over a character that is no quote, backslash or line break. -/
theorem scanString_plain {c : Char} (h : c ∉ escapedChars) (rest : List Char) :
    scanString '\'' (c :: rest) = (scanString '\'' rest).map (Split.prepend [c]) := by
  simp only [escapedChars, mem_cons, not_mem_nil, or_false, not_or] at h
  obtain ⟨hbreak, -, -, hslash, hquote⟩ := h
  rw [scanString.eq_def]
  simp [hbreak, hslash, hquote]

/-- The digits of a control character's code are plain. -/
theorem hexPair_plain {n : Nat} (h : n < 32) : ∀ c ∈ quotePoint.hexPair n, c ∉ escapedChars := by
  have hall : ∀ n < 32, (quotePoint.hexPair n).all (fun c => !escapedChars.contains c) = true := by
    decide
  intro c hc
  simpa using all_eq_true.1 (hall n h) c hc

/-- A scanner of strings passes over a quoted code point. -/
theorem scanString_quotePoint (point : Nat) (rest : List Char) :
    scanString '\'' ((quotePoint point).map shownChar ++ rest) =
      (scanString '\'' rest).map (Split.prepend ((quotePoint point).map shownChar)) := by
  by_cases hescaped : point ∈ codePoints escapedChars
  · simp only [escapedChars, codePoints, map_cons, map_nil, mem_cons, not_mem_nil,
      or_false] at hescaped
    rcases hescaped with rfl | rfl | rfl | rfl | rfl <;> rfl
  rw [quotePoint_of_notMem hescaped]
  split
  case isTrue hcontrol =>
    have hplain := hexPair_plain hcontrol
    have hpair : scanString '\'' (quotePoint.hexPair point ++ rest) =
        (scanString '\'' rest).map (Split.prepend (quotePoint.hexPair point)) := by
      rw [quotePoint.hexPair, cons_append, cons_append,
        scanString_plain (hplain _ (.head _)), scanString_plain (hplain _ (.tail _ (.head _))),
        Option.map_map]
      rfl
    rw [map_shownChar_codePoints]
    change (scanString '\'' (quotePoint.hexPair point ++ rest)).map (Split.prepend ['\\', 'x']) = _
    rw [hpair, Option.map_map]
    rfl
  case isFalse => exact scanString_plain (shownChar_notMem hescaped) rest

/-- A scanner of strings takes a quoted string and its closing quote. -/
theorem scanString_quoted (points : List Nat) (rest : List Char) :
    scanString '\'' ((points.flatMap quotePoint).map shownChar ++ '\'' :: rest) =
      some ((points.flatMap quotePoint).map shownChar ++ ['\''], rest) := by
  induction points with
  | nil =>
    rw [flatMap_nil, map_nil, nil_append, scanString.eq_def]
    rfl
  | cons point later ih =>
    rw [flatMap_cons, map_append, append_assoc, scanString_quotePoint, ih, Option.map_some,
      Split.prepend, append_assoc]

/-- How a quoted string is seen. -/
theorem chars_quote (points : List Nat) : (⟨quote points⟩ : Text).chars =
    '\'' :: ((points.flatMap quotePoint).map shownChar ++ ['\'']) := by
  rw [Text.chars, quote, map_append, map_cons]
  rfl

/-- A quoted string is a token that spells it. -/
theorem quote_spells (points : List Nat) :
    (Constant.string points).IsSpelling ⟨quote points⟩ := by
  refine ⟨?_, stringValue_quote points⟩
  have htoken : TokenAt [] false '\'' _ .string _ [] :=
    .string (.inr rfl) (scanString_quoted points [])
  rw [chars_quote]
  exact .intro rfl rfl htoken

/-! ## Integers -/

/-! ## Nodes -/

/-- A string is written between quotes. -/
theorem literalText_of_wideText {value : Value} {points : List Nat}
    (h : value.wideText? = some ⟨points⟩) : value.literalText = .ok (some ⟨quote points⟩) := by
  cases value with
  | text | decoded =>
    cases h
    rfl
  | _ => cases h

/-- The text that a string is printed as is one token, whose value is the string. -/
theorem lex_quote (points : List Nat) :
    ∃ lexed token, (∀ value : Value, value.wideText? = some ⟨points⟩ →
        value.literalText = .ok (some ⟨token.points⟩)) ∧
      lexText? ⟨token.points⟩ = some lexed ∧ lexed.tokens = [token] ∧ lexed.comments = [] ∧
      token.kind = .string ∧ token.span = ⟨0, token.points.length⟩ ∧
      stringValue token.points = .ok points := by
  have hpiece : PieceAt [] true (⟨quote points⟩ : Text).chars
      (.token .string (⟨quote points⟩ : Text).chars) [] [] := by
    rw [chars_quote]
    exact .token rfl rfl (.string (.inr rfl) (scanString_quoted points []))
  have hstart : ¬ ['#', '!'] <+: (⟨quote points⟩ : Text).chars := by
    rw [chars_quote]
    rintro ⟨rest, hrest⟩
    cases hrest
  obtain ⟨lexed, hlex, hshows⟩ := lex_of_lexesSource (.plain hstart (.step hpiece .done))
  obtain ⟨token, htokens, hfacts⟩ := map_eq_singleton_iff.1 hshows.tokens
  have hkind : token.kind = .string := congrArg TokenFacts.kind hfacts
  have hspan : token.span = ⟨0, (quote points).length⟩ := by
    rw [show token.span = _ from congrArg TokenFacts.span hfacts, Text.chars, length_map,
      Nat.zero_add]
  have hword : token.word = (token.kind, ↑(⟨quote points⟩ : Text).spelling.text) := by
    rw [hkind]
    exact congrArg TokenFacts.word hfacts
  have hpoints : token.span.points ⟨quote points⟩ = (⟨quote points⟩ : Text).spelling.points := by
    rw [hspan, Text.points_spelling]
    exact slice_length
  have hexact : (⟨quote points⟩ : Text).spelling.Exact token.kind := by
    rw [hkind]
    exact (quote_spells points).exact
  obtain ⟨token', hrestore, hword', hspan'⟩ := Token.exists_restore hpoints hword hexact
  have hspells : token'.points = quote points :=
    (congrArg (·.2.points) hword').trans (Text.points_spelling _)
  refine ⟨{ lexed with tokens := [token'] }, token', ?_⟩
  rw [hspells]
  refine ⟨fun _ => literalText_of_wideText, lexText?_eq_some hlex ?_ ?_, rfl,
    map_eq_nil_iff.1 hshows.comments, (congrArg (·.1) hword').trans hkind,
    hspan'.trans hspan, stringValue_quote points⟩
  · rw [map_eq_nil_iff.1 hshows.comments]
    exact forall_mem_nil _
  · rw [htokens, mapM_eq_some, map_singleton, map_singleton, hrestore]

end DocTypes
