import DocTypes.Proofs.TypeExpr.Legible

/-!
# Texts that stay

The tree that the text of a formed type has is printed to that text again (`print_reread`):
parentheses that printing put there are in the tree now, so none are added, and alternatives that
were taken together are printed in the same order.
-/

namespace DocTypes

open List

namespace TypeExpr

theorem isArrow_reread (type : TypeExpr) : type.reread.isArrow = type.isArrow := by
  cases type <;> rfl

theorem isUnion_reread (type : TypeExpr) : type.reread.isUnion = type.isUnion := by
  cases type <;> rfl

theorem isLow_covered (type : TypeExpr) : (covered type.isLow type.reread).isLow = false := by
  cases hlow : type.isLow with
  | true => rfl
  | false => cases type <;> first | rfl | exact hlow

theorem isPrefixed_covered (type : TypeExpr) :
    ((covered (type.isPrefixed || type.isLow) type.reread).isPrefixed ||
      (covered (type.isPrefixed || type.isLow) type.reread).isLow) = false := by
  cases hbound : (type.isPrefixed || type.isLow) with
  | true => rfl
  | false => cases type <;> first | rfl | exact hbound

theorem isJoined_covered (type : TypeExpr) :
    ((covered (type.isJoined || type.isArrow) type.reread).isJoined ||
      (covered (type.isJoined || type.isArrow) type.reread).isArrow) = false := by
  cases hloose : (type.isJoined || type.isArrow) with
  | true => rfl
  | false => cases type <;> first | rfl | exact hloose

@[simp]
theorem print_covered (loose : Bool) (type : TypeExpr) :
    (covered loose type).print = grouped loose type.print := by
  cases loose <;> rfl

section
variable {type : TypeExpr}

/-- What was put in parentheses needs none before or after an operator sign. -/
theorem affixed_covered (leading : Bool) (mark : String) (h : type.reread.print = type.print) :
    affixed leading mark (covered type.isLow type.reread) (covered type.isLow type.reread).print =
      affixed leading mark type type.print := by
  have hlow := isLow_covered type
  rw [isLow] at hlow
  rw [affixed, hlow, print_covered, h]
  rfl

/-- Types that were reread, and split perhaps, make up the same text. -/
theorem intercalate_rereadAll (gap : String) {loose : TypeExpr → Bool}
    {split : TypeExpr → List TypeExpr} {types : List TypeExpr}
    (hparenthesis : ∀ e, loose (.parenthesis e) = false)
    (htext : ∀ e ∈ types, e.reread.print = e.print)
    (hsplit : ∀ e ∈ types, split e.reread ≠ [] ∧ (loose e = false →
      gap.intercalate (printGrouped loose (split e.reread)) = e.reread.print)) :
    gap.intercalate (printGrouped loose (rereadAll loose split types)) =
      gap.intercalate (printGrouped loose types) := by
  induction types with
  | nil => rfl
  | cons e rest ih =>
    obtain ⟨he, hrest⟩ := forall_mem_cons.1 htext
    obtain ⟨⟨hne, hjoin⟩, hsplit'⟩ := forall_mem_cons.1 hsplit
    -- the texts of what the first type became make up its own text
    have hfirst : ∃ texts : List String, texts ≠ [] ∧
        gap.intercalate texts = grouped (loose e) e.print ∧
        printGrouped loose (rereadAll loose split (e :: rest)) =
          texts ++ printGrouped loose (rereadAll loose split rest) := by
      rw [rereadAll, printGrouped_eq_map, map_append, ← printGrouped_eq_map,
        ← printGrouped_eq_map]
      cases hloose : loose e with
      | true =>
        refine ⟨_, ?_, ?_, rfl⟩
        · simp
        · simp [hparenthesis, print, grouped, he]
      | false =>
        refine ⟨_, ?_, ?_, rfl⟩
        · simpa using hne
        · simpa [grouped, he] using hjoin hloose
    obtain ⟨texts, htexts, hgap, hprint⟩ := hfirst
    rw [hprint, printGrouped]
    cases rest with
    | nil => simpa [rereadAll, printGrouped] using hgap
    | cons second rest =>
      have hmore : printGrouped loose (rereadAll loose split (second :: rest)) ≠ [] := by
        have hle := length_le_rereadAll loose fun e he => (hsplit' e he).1
        rw [printGrouped_eq_map, ne_eq, map_eq_nil_iff]
        refine ne_nil_of_length_pos ?_
        rw [length_cons] at hle
        omega
      rw [String.intercalate_append_of_ne_nil htexts hmore, hgap, ih hrest hsplit',
        String.intercalate_cons_of_ne_nil (by rw [printGrouped]; exact cons_ne_nil _ _)]

/-- The tree of the text of a formed type has this text. -/
theorem print_reread (h : type.isFormed = true) : type.reread.print = type.print := by
  induction type using byParts with
  | step type ih =>
    obtain ⟨hlayer, hparts⟩ := isFormed_iff.1 h
    have htext : ∀ e ∈ type.parts, e.reread.print = e.print := fun e he => ih e he (hparts e he)
    have hlist : ∀ {types : List TypeExpr}, (∀ e ∈ types, e.reread.print = e.print) →
        printGrouped (fun _ => false) (rereadAll (fun _ => false) ([·]) types) =
          printGrouped (fun _ => false) types := by
      intro types htypes
      rw [rereadAll_single, printGrouped_eq_map, printGrouped_eq_map, map_map]
      exact map_congr_left htypes
    clear ih
    cases type with
    | name | any | unknown | string | number => rfl
    | union elements =>
      rw [reread, print, print]
      refine intercalate_rereadAll " | " (fun _ => rfl) htext fun e he => ?_
      obtain ⟨hne, hunion⟩ := alternatives_reread (hparts e he)
      refine ⟨hne, fun harrow => ?_⟩
      cases hkind : e.isUnion with
      | true => rw [(hunion hkind).2, print, alternatives]
      | false =>
        rw [alternatives_of_not_isUnion hkind]
        simp [isArrow_reread, harrow, grouped]
    | intersection elements =>
      rw [reread, print, print]
      refine intercalate_rereadAll " & " (fun _ => rfl) htext fun e he => ?_
      obtain ⟨hne, hjoined⟩ := conjuncts_reread (hparts e he)
      refine ⟨hne, fun hloose => ?_⟩
      cases hkind : e.isJoined with
      | true =>
        rw [Bool.or_eq_false_iff] at hloose
        rw [(hjoined hkind hloose.1).2, print, conjuncts]
      | false =>
        rw [conjuncts_of_not_isJoined hkind]
        simp only [printGrouped_eq_map, map_cons, map_nil, isUnion_reread, isArrow_reread,
          hloose, String.intercalate_singleton]
        rfl
    | generic head arguments dotted =>
      obtain ⟨hhead, harguments⟩ := forall_mem_cons.1 htext
      rw [reread, print, print, hhead, hlist harguments]
    | tuple elements =>
      simp only [parts] at htext
      rw [reread, print, print, hlist htext]
    | object fields separator =>
      simp only [parts] at htext
      rw [reread, print, print, hlist htext]
      split
      · rename_i hlength
        have hlength' : (printGrouped (fun _ => false) fields).length ≤ 1 := by
          rw [printGrouped_eq_map, length_map]
          exact hlength
        generalize printGrouped (fun _ => false) fields = texts at hlength'
        cases texts with
        | nil => rfl
        | cons text texts =>
          have htexts : texts = [] := length_eq_zero_iff.1 (by simpa using hlength')
          rw [htexts, String.intercalate_singleton, String.intercalate_singleton]
      · rfl
    | array e =>
      have he := htext e (.head _)
      rw [reread, print, print, grouped_grouped, grouped_grouped, isPrefixed_covered,
        print_covered, he]
      rfl
    | parenthesis e | typeof e =>
      have he := htext e (.head _)
      rw [reread, print, print, he]
    | nullable e | notNullable e | optional e =>
      rw [reread, print, print]
      exact affixed_covered _ _ (htext e (.head _))
    | keyof e =>
      have he := htext e (.head _)
      rw [reread, print, print, isJoined_covered, print_covered, he]
      rfl
    | field label type | parameter label type =>
      cases type with
      | none => rfl
      | some type =>
        have htype := htext type (.head _)
        simp [reread, print, covered, htype]
    | variadic type =>
      cases type with
      | none => rfl
      | some type =>
        rw [reread, rereadOption, print, print]
        exact affixed_covered _ _ (htext type (.head _))
    | function parameters result arrow constructs =>
      have hparameters := hlist fun e he => htext e (mem_append_left _ he)
      rw [reread, print, print, hparameters]
      cases result with
      | none => rfl
      | some e =>
        have he := htext e (mem_append_right _ (.head _))
        cases arrow with
        | true => simp [covered, he]
        | false =>
          simp only [rereadOption, printOption, Option.map_some, Option.getD_some, Bool.not_false,
            Bool.true_and, isJoined_covered, print_covered, he]
          rfl

end

end TypeExpr

end DocTypes
