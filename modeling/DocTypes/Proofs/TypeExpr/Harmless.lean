import DocTypes.Proofs.Lexing.Unclosed
import DocTypes.Proofs.TypeExpr.ReadFormed
import DocTypes.Proofs.TypeExpr.Unfold

/-!
# Types close no comment

A type is printed anew, with other blanks than it was written with. This brings no asterisk before a
slash (`harmless_print`), because a slash stands in the strings of a type only, and these stand in
the comment as they are (`Drawn.harmless_texts`).
-/

namespace DocTypes

open List

namespace TypeExpr

/-- The texts that a type shows apart from its parts and its signs. -/
def texts : TypeExpr → List String
  | .name text | .number text | .parameter text _ _ _ => [text]
  | .string text quote => [quote.toString ++ text ++ quote.toString]
  | .field label _ _ _ quote =>
    let mark := (quote.map Char.toString).getD ""
    [mark ++ label ++ mark]
  | .object _ separator => [separator.toString ++ " "]
  | _ => []

variable {type : TypeExpr} {types : List TypeExpr} {text : String}

theorem harmless_grouped (h : Harmless text) (loose : Bool) : Harmless (grouped loose text) := by
  cases loose with
  | false => exact h
  | true => exact ((by decide : Harmless "(").append h).append (by decide)

theorem harmless_affixed {sign : String} (hsign : Harmless sign) (h : Harmless text)
    (leading : Bool)
    (operand : TypeExpr) : Harmless (affixed leading sign operand text) := by
  cases leading with
  | false => exact (harmless_grouped h _).append hsign
  | true => exact hsign.append (harmless_grouped h _)

theorem harmless_listed {mark : String} (hmark : Harmless mark)
    (h : ∀ e ∈ types, Harmless e.print) (loose : TypeExpr → Bool) :
    Harmless (mark.intercalate (printGrouped loose types)) := by
  rw [printGrouped_eq_map]
  exact harmless_intercalate hmark (forall_mem_map.2 fun e he => harmless_grouped (h e he) _)

theorem harmless_annotated {text? : Option String} (h : ∀ text ∈ text?, Harmless text) :
    Harmless (annotated text?) := by
  cases text? with
  | none => exact (by decide : Harmless "")
  | some text => exact (by decide : Harmless ": ").append (h text rfl)

/-- A type is printed without closing a comment, if its parts and its own texts are. -/
theorem harmless_print (htexts : ∀ text ∈ type.texts, Harmless text)
    (hparts : ∀ part ∈ type.parts, Harmless part.print) : Harmless type.print := by
  have hopening : ∀ {sign : String} (there : Bool), Harmless sign →
      Harmless (if there then sign else "") := by
    intro sign there hsign
    cases there with
    | false => exact (by decide : Harmless "")
    | true => exact hsign
  have htyped : ∀ {type? : Option TypeExpr}, (∀ part ∈ type?.toList, Harmless part.print) →
      ∀ text ∈ printOption type?, Harmless text := by
    intro type? h text htext
    rw [printOption_eq_map] at htext
    obtain ⟨e, he, rfl⟩ := Option.map_eq_some_iff.1 htext
    exact h e (Option.mem_toList.2 he)
  cases type with
  | name text | number text | string text quote => exact htexts _ (.head _)
  | any | unknown => decide
  | union elements => exact harmless_listed (by decide) hparts _
  | intersection elements => exact harmless_listed (by decide) hparts _
  | tuple elements =>
    exact ((by decide : Harmless "[").append
      (harmless_listed (by decide) hparts _)).append (by decide)
  | object fields separator =>
    exact ((by decide : Harmless "\x7b").append
      (harmless_listed (htexts _ (.head _)) hparts _)).append (by decide)
  | generic head arguments dotted =>
    obtain ⟨hhead, harguments⟩ := forall_mem_cons.1 hparts
    refine ((hhead.append ?_).append (harmless_listed (by decide) harguments _)).append (by decide)
    cases dotted <;> decide
  | array element =>
    have helement :=
      harmless_grouped (hparts element (.head _)) (element.isLoose || element.isArrow)
    exact (harmless_grouped helement _).append (by decide)
  | field label type isOptional readonly quote =>
    have hlabel :=
      (hopening readonly (by decide : Harmless "readonly ")).append (htexts _ (.head _))
    have hprint := (hlabel.append (hopening isOptional (by decide : Harmless "?"))).append
      (harmless_annotated (htyped hparts))
    simpa only [print, String.append_assoc] using hprint
  | parameter label type isOptional isVariadic =>
    exact (((hopening isVariadic (by decide)).append (htexts _ (.head _))).append
      (hopening isOptional (by decide))).append (harmless_annotated (htyped hparts))
  | function parameters result arrow constructs =>
    obtain ⟨hparameters, hresult⟩ := forall_mem_append.1 hparts
    have hlist := ((by decide : Harmless "(").append
      (harmless_listed (by decide : Harmless ", ") hparameters fun _ => false)).append
      (by decide : Harmless ")")
    cases arrow with
    | true =>
      refine (((hopening constructs (by decide)).append hlist).append (by decide)).append ?_
      cases result with
      | none => exact (by decide : Harmless "void")
      | some result => exact htyped hresult _ rfl
    | false =>
      refine ((by decide : Harmless "function").append hlist).append (harmless_annotated ?_)
      intro text htext
      obtain ⟨inner, hinner, rfl⟩ := Option.map_eq_some_iff.1 htext
      exact harmless_grouped (htyped hresult inner hinner) _
  | parenthesis element =>
    exact ((by decide : Harmless "(").append (hparts element (.head _))).append (by decide)
  | nullable element leading | notNullable element leading =>
    exact harmless_affixed (by decide) (hparts element (.head _)) _ _
  | optional element => exact harmless_affixed (by decide) (hparts element (.head _)) _ _
  | variadic element =>
    cases element with
    | none => exact (by decide : Harmless "...")
    | some element => exact harmless_affixed (by decide) (hparts element (.head _)) _ _
  | typeof element => exact (by decide : Harmless "typeof ").append (hparts element (.head _))
  | keyof element =>
    exact (by decide : Harmless "keyof ").append (harmless_grouped (hparts element (.head _)) _)

/-- No slash stands in a name. -/
theorem harmless_of_isNameText (h : TypeToken.isNameText text.toList = true) : Harmless text :=
  harmless_of_notMem (notMem_of_isNameText h (by decide) (by decide))

/-- No slash stands in a number. -/
theorem harmless_of_isNumberText (h : TypeToken.isNumberText text.toList = true) :
    Harmless text := by
  refine harmless_of_notMem fun hmem => ?_
  generalize text.toList = chars at h hmem
  cases hmem with
  | head rest =>
    have hstart : TypeToken.startsNumber '/' rest = false := by
      rw [TypeToken.startsNumber, show isDigitLike '/' = false by decide]
      rfl
    rw [TypeToken.isNumberText, hstart] at h
    cases h
  | tail c hmem =>
    rw [TypeToken.isNumberText, Bool.and_eq_true, all_eq_true] at h
    exact absurd (h.2 '/' hmem) (by decide)

/-- A string closes no comment that it stands in. -/
theorem harmless_quoted {quote : Char} (h : TypeToken.isStringText quote text.toList = true)
    (htext : Unclosed text.toList) : Harmless (quote.toString ++ text ++ quote.toString) := by
  simp only [TypeToken.isStringText, Bool.and_eq_true, Bool.or_eq_true, beq_iff_eq] at h
  rcases h.1 with rfl | rfl
  · exact (htext.harmless_append (by decide)).append (by decide)
  · exact (htext.harmless_append (by decide)).append (by decide)

/-- The texts of a type that is drawn from a text close no comment that this does not close. -/
theorem Drawn.harmless_texts {source : List Char} (h : type.Drawn source)
    (hsource : Unclosed source) :
    ∀ text ∈ type.texts, Harmless text := by
  obtain ⟨⟨hlayer, hquotes⟩, -⟩ := drawn_iff.1 h
  cases type with
  | name text =>
    refine forall_mem_singleton.2 (intercalate_pieces text ▸ harmless_intercalate (by decide) ?_)
    refine forall_mem_map.2 fun piece hpiece => harmless_of_isNameText ?_
    rw [String.toList_ofList]
    exact all_eq_true.1 hlayer piece hpiece
  | number text => exact forall_mem_singleton.2 (harmless_of_isNumberText hlayer)
  | parameter label =>
    rw [layerFormed, Bool.and_eq_true] at hlayer
    exact forall_mem_singleton.2 (harmless_of_isNameText hlayer.1)
  | string text quote =>
    exact forall_mem_singleton.2 (harmless_quoted hlayer (hsource.part (of_decide_eq_true hquotes)))
  | field label type isOptional readonly quote =>
    refine forall_mem_singleton.2 ?_
    cases quote with
    | some quote =>
      exact harmless_quoted (Bool.and_eq_true_iff.1 hlayer).2
        (hsource.part (of_decide_eq_true hquotes))
    | none =>
      have hlabel := (Bool.and_eq_true_iff.1 hlayer).2
      rw [Bool.or_eq_true, Bool.and_eq_true] at hlabel
      have := hlabel.elim harmless_of_isNameText fun h => harmless_of_isNumberText h.2
      simpa using this
  | object fields separator =>
    have hseparator := (Bool.and_eq_true_iff.1 hlayer).2
    rw [Bool.or_eq_true, beq_iff_eq, beq_iff_eq] at hseparator
    refine forall_mem_singleton.2 ?_
    rcases hseparator with rfl | rfl <;> decide
  | _ => exact forall_mem_nil _

end TypeExpr

namespace Arena

variable {arena arena' : Arena} {key source : Nat} {type : TypeExpr}

/-- No slot of the arena shows a text that could close a comment. -/
def AllHarmless (arena : Arena) : Prop :=
  ∀ key node, arena.get? key = some node → ∀ text ∈ (node.shape.fill []).texts, Harmless text

/-- What a layer shows does not depend on its parts. -/
theorem texts_fill (shape : TypeShape Nat) (parts : List TypeExpr) :
    (shape.fill parts).texts = (shape.fill []).texts := by
  cases shape <;> rfl

/-- Storing a type that is drawn from a text. -/
theorem AllHarmless.insert (h : arena.AllHarmless) {text : List Char} (htext : Unclosed text)
    (htype : type.Drawn text) : (insert type arena).2.AllHarmless := by
  have hstoring : Storing fun arena types keys arena' => keys.length = types.length ∧
      ((∀ type ∈ types, type.Drawn text) → arena.AllHarmless → arena'.AllHarmless) := by
    refine ⟨fun _ => ⟨rfl, fun _ => id⟩, fun h h' => ⟨?_, fun htypes harena => ?_⟩,
      fun {_ _ types _ shape _} h hparts htype => ⟨rfl, fun htypes harena key node hnode => ?_⟩⟩
    · rw [length_append, length_append, h.1, h'.1]
    · exact h'.2 (forall_mem_append.1 htypes).2 (h.2 (forall_mem_append.1 htypes).1 harena)
    · have hdrawn := forall_mem_singleton.1 htypes
      rw [htype] at hdrawn
      rcases get_add hnode with hold | ⟨rfl, -⟩
      · have hdrawns := (TypeExpr.drawn_iff.1 hdrawn).2
        rw [TypeShape.parts_fill (h.1 ▸ congrArg List.length hparts.symm)] at hdrawns
        exact h.2 hdrawns harena key node hold
      · rw [← texts_fill shape types]
        exact hdrawn.harmless_texts htext
  exact (hstoring.insert type arena).2 (forall_mem_singleton.2 htype) h

/-- Giving slots what another one holds. -/
theorem AllHarmless.overwrite {keys : List Nat} (h : arena.AllHarmless)
    (hover : arena.Overwrites keys source arena') : arena'.AllHarmless := by
  intro other node hnode
  by_cases hother : other ∈ keys
  · rw [hover.here other hother] at hnode
    obtain ⟨old, hold, rfl⟩ := Option.map_eq_some_iff.1 hnode
    exact h source old hold
  · exact h other node (hover.elsewhere other hother ▸ hnode)

/-- A type of the arena is printed without closing a comment. -/
theorem AllHarmless.print? (h : arena.AllHarmless) {text : String}
    (hprint : arena.print? key = some text) : Harmless text := by
  obtain ⟨type, htree, rfl⟩ := Option.map_eq_some_iff.1 hprint
  refine byTree (motive := fun _ type => Harmless type.print)
    (fun key node parts hnode hlength hparts ih => ?_) htree
  refine TypeExpr.harmless_print (texts_fill .. ▸ h key node hnode) fun part hpart => ?_
  rw [TypeShape.parts_fill hlength] at hpart
  obtain ⟨below, hbelow, htree⟩ := exists_part_tree hparts hpart
  exact ih below hbelow part hpart htree

end Arena

end DocTypes
