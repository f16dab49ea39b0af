import DocTypes.Proofs.TypeExpr.Gives

/-!
# Brackets in printed types

Whether an arrow follows the bracket that closes the first one is found by counting brackets
(`arrowFollows`). The lexemes of a type open and close the same brackets (`balanced_lexemes`), so
the count passes over them.
-/

namespace DocTypes

open List

open TypeLexeme (sign word)

namespace TypeReader

/-- Is it a bracket that opens? -/
def isOpening (lexeme : TypeLexeme) : Bool :=
  lexeme.kind == .punctuator && ["(", "[", "\x7b", "<"].contains lexeme.text

/-- Is it a bracket that closes? -/
def isClosing (lexeme : TypeLexeme) : Bool :=
  lexeme.kind == .punctuator && [")", "]", "\x7d", ">"].contains lexeme.text

/-- From an opening bracket on: does an arrow follow the matching closing one? -/
def arrowAhead (depth : Nat) : List TypeLexeme → Bool
  | [] => false
  | lexeme :: rest =>
    if isOpening lexeme then arrowAhead (depth + 1) rest
    else if isClosing lexeme then
      if depth == 1 then (TypeLexeme.peek rest 0).text == "=>" else arrowAhead (depth - 1) rest
    else arrowAhead depth rest

/-- Brackets are counted on the lexemes of tokens. -/
theorem arrowFollows_eq (depth : Nat) (tokens : List TypeToken) :
    arrowFollows depth tokens = arrowAhead depth (tokens.map TypeToken.lexeme) := by
  fun_induction arrowFollows depth tokens with
  | case1 => rfl
  | case2 depth token rest hopen ih =>
    have hopen : isOpening token.lexeme = true := hopen
    rw [map_cons, arrowAhead, if_pos hopen, ih]
  | case3 depth token rest hopen hclose hone =>
    have hopen : ¬isOpening token.lexeme = true := hopen
    have hclose : isClosing token.lexeme = true := hclose
    rw [map_cons, arrowAhead, if_neg hopen, if_pos hclose, if_pos hone]
    cases rest <;> rfl
  | case4 depth token rest hopen hclose hone ih =>
    have hopen : ¬isOpening token.lexeme = true := hopen
    have hclose : isClosing token.lexeme = true := hclose
    rw [map_cons, arrowAhead, if_neg hopen, if_pos hclose, if_neg hone, ih]
  | case5 depth token rest hopen hclose ih =>
    have hopen : ¬isOpening token.lexeme = true := hopen
    have hclose : ¬isClosing token.lexeme = true := hclose
    rw [map_cons, arrowAhead, if_neg hopen, if_neg hclose, ih]

/-- Counting brackets passes over the lexemes. -/
def Balanced (lexemes : List TypeLexeme) : Prop :=
  ∀ depth rest, arrowAhead (depth + 1) (lexemes ++ rest) = arrowAhead (depth + 1) rest

theorem balanced_nil : Balanced [] :=
  fun _ _ => rfl

theorem Balanced.append {first second : List TypeLexeme} (h : Balanced first)
    (h' : Balanced second) : Balanced (first ++ second) := by
  intro depth rest
  rw [append_assoc, h, h']

/-- Is it no bracket? -/
def isFlat (lexeme : TypeLexeme) : Bool :=
  !isOpening lexeme && !isClosing lexeme

theorem Balanced.cons {lexemes : List TypeLexeme} (h : Balanced lexemes) {l : TypeLexeme}
    (hflat : isFlat l = true) : Balanced (l :: lexemes) := by
  intro depth rest
  simp only [isFlat, Bool.and_eq_true, Bool.not_eq_true'] at hflat
  rw [cons_append, arrowAhead, hflat.1, hflat.2, if_neg nofun, if_neg nofun, h]

/-- Lexemes between two brackets. -/
theorem Balanced.bracket {lexemes : List TypeLexeme} (h : Balanced lexemes) {l r : TypeLexeme}
    (hleft : isOpening l = true) (hright : isOpening r = false ∧ isClosing r = true) :
    Balanced (l :: lexemes ++ [r]) := by
  intro depth rest
  rw [cons_append, cons_append, append_assoc, arrowAhead, if_pos hleft, h,
    singleton_append, arrowAhead, hright.1, if_neg nofun, if_pos hright.2, if_neg (by simp)]
  rfl

end TypeReader

namespace TypeExpr

open TypeReader

/-- What holds of lexemes that are no brackets holds of all that types put together of them. The
sign `=` is left out. -/
structure Composes (P : List TypeLexeme → Prop) : Prop where
  nil : P []
  append : ∀ {first second : List TypeLexeme}, P first → P second → P (first ++ second)
  flat : ∀ {l : TypeLexeme}, isFlat l = true → l ≠ sign "=" → P [l]
  bracket : ∀ {lexemes : List TypeLexeme} {l r : TypeLexeme}, P lexemes → isOpening l = true →
    isOpening r = false ∧ isClosing r = true → P (l :: lexemes ++ [r])

namespace Composes

variable {P : List TypeLexeme → Prop} (h : Composes P) {lexemes : List TypeLexeme}
include h

theorem sign {p : String} (hflat : isFlat (sign p) = true) (hne : p ≠ "=") :
    P [TypeLexeme.sign p] :=
  h.flat hflat fun heq => hne (congrArg TypeLexeme.text heq)

theorem word (text : String) : P [word text] :=
  h.flat rfl nofun

theorem enclosed (hlexemes : P lexemes) (loose : Bool) : P (enclosed loose lexemes) := by
  cases loose with
  | false => exact hlexemes
  | true => exact h.bracket hlexemes rfl ⟨rfl, rfl⟩

theorem parted {mark : String} (hmark : P [TypeLexeme.sign mark]) {lists : List (List TypeLexeme)}
    (hlists : ∀ list ∈ lists, P list) : P (parted mark lists) := by
  induction lists with
  | nil => exact h.nil
  | cons first lists ih =>
    obtain ⟨hfirst, hlists⟩ := forall_mem_cons.1 hlists
    cases lists with
    | nil => simpa [TypeExpr.parted] using hfirst
    | cons second lists =>
      rw [TypeExpr.parted, intercalate_cons_cons]
      exact h.append (h.append hfirst hmark) (ih hlists)

theorem grouped {mark : String} (hmark : P [TypeLexeme.sign mark]) (loose : TypeExpr → Bool)
    {types : List TypeExpr} (htypes : ∀ e ∈ types, P e.lexemes) :
    P (TypeExpr.parted mark (lexemesGrouped loose types)) := by
  rw [lexemesGrouped_eq_map]
  exact h.parted hmark (forall_mem_map.2 fun e he => h.enclosed (htypes e he) _)

theorem affixed {mark : String} (hmark : P [TypeLexeme.sign mark]) (hlexemes : P lexemes)
    (leading loose : Bool) : P (affixedLexemes leading mark loose lexemes) := by
  cases leading with
  | true => exact h.append hmark (h.enclosed hlexemes loose)
  | false => exact h.append (h.enclosed hlexemes loose) hmark

theorem annotated {type? : Option TypeExpr} (htype : ∀ e ∈ type?, P e.lexemes)
    (loose : TypeExpr → Bool) :
    P (annotatedLexemes (type?.map fun e => TypeExpr.enclosed (loose e) e.lexemes)) := by
  cases type? with
  | none => exact h.nil
  | some e => exact h.append (h.sign rfl (by decide)) (h.enclosed (htype e rfl) _)

theorem ite {l : TypeLexeme} (hl : P [l]) (there : Bool) : P (if there then [l] else []) := by
  cases there with
  | false => exact h.nil
  | true => exact hl

theorem label (label : String) (quote : Option Char) : P [labelLexeme label quote] := by
  cases quote with
  | some quote => exact h.flat rfl (by rintro ⟨⟩)
  | none =>
    rw [labelLexeme]
    split
    · exact h.flat rfl (by rintro ⟨⟩)
    · exact h.flat rfl (by rintro ⟨⟩)

/-- What holds of the parts of a formed type holds of the type, and so of all types but optional
ones. -/
theorem layer {type : TypeExpr} (hlayer : type.layerFormed = true)
    (hoptional : ∀ e, type = .optional e → P [TypeLexeme.sign "="])
    (hparts : ∀ part ∈ type.parts, P part.lexemes) : P type.lexemes := by
  have hcomma := h.sign (p := ",") rfl (by decide)
  have hquestion := h.sign (p := "?") rfl (by decide)
  have hdots := h.sign (p := "...") rfl (by decide)
  cases type with
  | name text =>
    exact h.parted (h.sign rfl (by decide)) (forall_mem_map.2 fun piece _ => h.word _)
  | any | unknown => exact h.sign rfl (by decide)
  | string | number => exact h.flat rfl nofun
  | union | intersection => exact h.grouped (h.sign rfl (by decide)) _ hparts
  | tuple => exact h.bracket (h.grouped hcomma _ hparts) rfl ⟨rfl, rfl⟩
  | object fields separator =>
    simp only [layerFormed, Bool.and_eq_true, Bool.or_eq_true, beq_iff_eq] at hlayer
    have hmark : P [TypeLexeme.sign separator.toString] := by
      rcases hlayer.2 with rfl | rfl
      · exact h.sign rfl (by decide)
      · exact h.sign rfl (by decide)
    exact h.bracket (h.grouped hmark _ hparts) rfl ⟨rfl, rfl⟩
  | generic head arguments dotted =>
    obtain ⟨hhead, harguments⟩ := forall_mem_cons.1 hparts
    have hbracket := h.bracket (l := .sign "<") (r := .sign ">")
      (h.grouped hcomma (fun _ => false) harguments) rfl ⟨rfl, rfl⟩
    cases dotted with
    | false => simpa [lexemes] using h.append hhead hbracket
    | true =>
      have hpoint := h.append (h.sign (p := ".") rfl (by decide)) hbracket
      simpa [lexemes] using h.append hhead hpoint
  | array element =>
    exact h.append (h.enclosed (hparts element (.head _)) _) (h.bracket h.nil rfl ⟨rfl, rfl⟩)
  | field label type isOptional readonly quote =>
    have htype := h.annotated (fun e he => hparts e (Option.mem_toList.2 he)) fun _ => false
    rw [lexemes, lexemesOption_eq_map]
    exact h.append (h.append (h.append (h.ite (h.word _) _) (h.label label quote))
      (h.ite hquestion _)) htype
  | parameter label type isOptional isVariadic =>
    have htype := h.annotated (fun e he => hparts e (Option.mem_toList.2 he)) fun _ => false
    rw [lexemes, lexemesOption_eq_map]
    exact h.append (h.append (h.append (h.ite hdots _) (h.word label)) (h.ite hquestion _)) htype
  | function parameters result arrow constructs =>
    have hbracket := h.bracket (l := .sign "(") (r := .sign ")") (h.grouped hcomma (fun _ => false)
      fun e he => hparts e (mem_append_left _ he)) rfl ⟨rfl, rfl⟩
    have hresult : ∀ e ∈ result, P e.lexemes :=
      fun e he => hparts e (mem_append_right _ (Option.mem_toList.2 he))
    cases arrow with
    | true =>
      have hlast : P ((lexemesOption result).getD [TypeLexeme.word "void"]) := by
        cases result with
        | none => exact h.word _
        | some e => exact hresult e rfl
      exact h.append (h.append (h.ite (h.word _) _) hbracket)
        (h.append (h.sign (p := "=>") rfl (by decide)) hlast)
    | false =>
      have hannotated := h.annotated hresult fun e => e.isJoined || e.isArrow
      cases result <;> exact h.append (h.append (h.word _) hbracket) hannotated
  | parenthesis element => exact h.enclosed (hparts element (.head _)) true
  | nullable element => exact h.affixed hquestion (hparts element (.head _)) _ _
  | notNullable element => exact h.affixed (h.sign rfl (by decide)) (hparts element (.head _)) _ _
  | optional element => exact h.affixed (hoptional element rfl) (hparts element (.head _)) _ _
  | variadic element =>
    cases element with
    | none => exact hdots
    | some element => exact h.affixed hdots (hparts element (.head _)) _ _
  | typeof element => exact h.append (h.word _) (hparts element (.head _))
  | keyof element => exact h.append (h.word _) (h.enclosed (hparts element (.head _)) _)

end Composes

theorem composes_balanced : Composes Balanced :=
  ⟨balanced_nil, .append, fun h _ => balanced_nil.cons h, fun h => h.bracket⟩

/-- A type opens and closes the same brackets. -/
theorem balanced_lexemes {type : TypeExpr} (h : type.isFormed = true) : Balanced type.lexemes := by
  induction type using byParts with
  | step type ih =>
    obtain ⟨hlayer, hparts⟩ := isFormed_iff.1 h
    exact composes_balanced.layer hlayer (fun _ _ => balanced_nil.cons rfl)
      fun part hpart => ih part hpart (hparts part hpart)

end TypeExpr

end DocTypes
