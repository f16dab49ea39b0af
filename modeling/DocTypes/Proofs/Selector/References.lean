import DocTypes.Pass.Typedefs
import DocTypes.Proofs.Rounds

/-!
# Reading the selector of references

The selector of the references to a name holds the name in quotes. It is read back whole, whatever
the name is, if no quote stands in it (`Selector.read_references`).
-/

namespace DocTypes

open List

namespace SelectorReader

variable {rest text : List Char} {label : String} {offset : Nat} {next : Char}

/-- Characters are taken as long as the test holds of them. -/
theorem run_takeWhile {p : Char → Bool} (htext : ∀ c ∈ text, p c = true) (hnext : p next = false) :
    (takeWhile p).run ⟨text ++ next :: rest, offset⟩ =
      .ok (text, ⟨next :: rest, offset + text.length⟩) := by
  have htake : (text ++ next :: rest).takeWhile p = text := by
    rw [takeWhile_append_of_pos htext, takeWhile_cons_of_neg (by simp [hnext]),
      append_nil]
  change Except.ok ((text ++ next :: rest).takeWhile p,
    (⟨(text ++ next :: rest).drop _, offset + _⟩ : SelectorCursor)) = _
  rw [htake, drop_left]

/-- There are no blanks to be taken. -/
theorem run_blanks (hnext : isBlank next = false) :
    blanks.run ⟨next :: rest, offset⟩ = .ok ((), ⟨next :: rest, offset⟩) := by
  have hnone : ∀ c ∈ ([] : List Char), isBlank c = true := nofun
  exact run_bind_ok (run_bind_ok (run_takeWhile hnone hnext))

/-- A name is taken whole. -/
theorem run_name (htext : ∀ c ∈ text, isNamePart c = true) (hne : text ≠ [])
    (hnext : isNamePart next = false) :
    name.run ⟨text ++ next :: rest, offset⟩ =
      .ok (String.ofList text, ⟨next :: rest, offset + text.length⟩) := by
  refine (run_bind_ok (run_takeWhile htext hnext)).trans ?_
  rw [if_neg (by simpa using hne)]
  rfl

/-- The character that has to be next is taken. -/
theorem run_expect (c : Char) :
    (expect c).run ⟨c :: rest, offset⟩ = .ok ((), ⟨rest, offset + 1⟩) := by
  have heat : (eat c).run ⟨c :: rest, offset⟩ = .ok (true, ⟨rest, offset + 1⟩) := by
    have hpeek : peek?.run ⟨c :: rest, offset⟩ = .ok (some c, ⟨c :: rest, offset⟩) := rfl
    refine (run_bind_ok hpeek).trans ?_
    rw [if_pos (beq_self_eq_true _)]
    rfl
  exact run_bind_ok heat

/-- A value in quotes is what stands between them. -/
theorem run_value (h : '"' ∉ label.toList) :
    value.run ⟨'"' :: (label.toList ++ '"' :: rest), offset⟩ =
      .ok (label, ⟨rest, offset + (label.toList.length + 2)⟩) := by
  generalize htext : label.toList = text at h
  have hcontains : (text ++ '"' :: rest).contains '"' = true := by simp
  have htake : (text ++ '"' :: rest).takeWhile (· != '"') = text := by
    rw [takeWhile_append_of_pos fun c hc => by
      rw [bne_iff_ne]
      rintro rfl
      exact h hc]
    simp
  have hdrop : ('"' :: (text ++ '"' :: rest)).drop (text.length + 2) = rest := by
    simp
  rw [value]
  change (if (!(text ++ '"' :: rest).contains '"') = true then _ else _ : SelectorReader String).run
    ⟨'"' :: (text ++ '"' :: rest), offset⟩ = _
  rw [hcontains, htake]
  change Except.ok (String.ofList text,
    (⟨('"' :: (text ++ '"' :: rest)).drop _, _⟩ : SelectorCursor)) = _
  rw [hdrop, ← htext, String.ofList_toList]

/-- The test of an attribute's value. -/
theorem run_attributeSelector (h : '"' ∉ label.toList) :
    attributeSelector.run
        ⟨['[', 'v', 'a', 'l', 'u', 'e', '='] ++ '"' ::
        (label.toList ++ '"' :: ']' :: rest), offset⟩ =
      .ok (.attributeIs ["value"] (.equals label),
        ⟨rest, offset + 7 + (label.toList.length + 2) + 1⟩) := by
  have hpath : pathRest.run ⟨'=' :: '"' :: (label.toList ++ '"' :: ']' :: rest), offset + 6⟩ =
      .ok ([], ⟨'=' :: '"' :: (label.toList ++ '"' :: ']' :: rest), offset + 6⟩) := rfl
  have htest : attributeTest.run ⟨'=' :: '"' :: (label.toList ++ '"' :: ']' :: rest), offset + 6⟩ =
      .ok (.equals label, ⟨rest, offset + 7 + (label.toList.length + 2) + 1⟩) := by
    change (do
      blanks
      let text ← value
      blanks
      expect ']'
      return AttributeTest.equals text : SelectorReader AttributeTest).run
        ⟨'"' :: (label.toList ++ '"' :: ']' :: rest), offset + 7⟩ = _
    refine (run_bind_ok (run_blanks (by decide))).trans ?_
    refine (run_bind_ok (run_value h)).trans ?_
    refine (run_bind_ok (run_blanks (by decide))).trans ?_
    exact run_bind_ok (run_expect ']')
  have hname : ∀ c ∈ ['v', 'a', 'l', 'u', 'e'], isNamePart c = true :=
    all_eq_true.1 (by decide)
  refine (run_bind_ok (run_expect '[')).trans ?_
  refine (run_bind_ok (run_blanks (by decide))).trans ?_
  refine (run_bind_ok (run_name hname (by decide) (by decide))).trans ?_
  refine (run_bind_ok hpath).trans ?_
  refine (run_bind_ok (run_blanks (by decide))).trans ?_
  exact run_bind_ok htest

/-- Rounds are gone through as long as characters are to come. -/
theorem run_many {α : Type} {round : SelectorReader (Option (α × Bool))}
    {cursor cursor' : SelectorCursor} {items : List α}
    (h : Rounds (·.rest.length) round cursor items cursor') :
    (many round).run cursor = .ok (items, cursor') := by
  have hget : (get : SelectorReader SelectorCursor).run cursor = .ok (cursor, cursor) := rfl
  exact (run_bind_ok hget).trans (run_rounds h (Nat.le_refl _))

/-- The next character is looked at. -/
theorem run_peek? : peek?.run ⟨rest, offset⟩ = .ok (rest.head?, ⟨rest, offset⟩) :=
  rfl

/-- The name of a kind is taken. -/
theorem run_kind? :
    kind?.run ⟨['T', 'y', 'p', 'e', 'N', 'a', 'm', 'e'] ++ '[' :: rest, offset⟩ =
      .ok ([.kind "TypeName"], ⟨'[' :: rest, offset + 8⟩) := by
  have hname : ∀ c ∈ ['T', 'y', 'p', 'e', 'N', 'a', 'm', 'e'], isNamePart c = true :=
    all_eq_true.1 (by decide)
  have hrun : name.run ⟨['T', 'y', 'p', 'e', 'N', 'a', 'm', 'e'] ++ '[' :: rest, offset⟩ =
      .ok ("TypeName", ⟨'[' :: rest, offset + 8⟩) := run_name hname (by decide) (by decide)
  rw [kind?]
  refine (run_bind_ok run_peek?).trans ?_
  dsimp only [cons_append, head?_cons]
  rw [if_neg (by decide), if_pos (by decide)]
  exact run_bind_ok hrun

/-- A kind with one test after it, up to the end. -/
theorem run_compound (recur : SelectorReader Selector) (h : '"' ∉ label.toList) :
    (compound recur).run ⟨['T', 'y', 'p', 'e', 'N', 'a', 'm', 'e'] ++
        (['[', 'v', 'a', 'l', 'u', 'e', '='] ++ '"' :: (label.toList ++ ['"', ']'])), offset⟩ =
      .ok (.allOf [.kind "TypeName", .attributeIs ["value"] (.equals label)],
        ⟨[], offset + 8 + 7 + (label.toList.length + 2) + 1⟩) := by
  rw [compound]
  refine (run_bind_ok run_kind?).trans ?_
  refine run_bind_eq [.attributeIs ["value"] (.equals label)]
    ⟨[], offset + 8 + 7 + (label.toList.length + 2) + 1⟩ ?_ rfl
  refine run_many (.more ?_ (by simp)
    (?_ : Rounds _ _ ⟨[], offset + 8 + 7 + (label.toList.length + 2) + 1⟩ _ _))
  · refine (run_bind_ok run_peek?).trans ?_
    dsimp only [cons_append, head?_cons]
    exact run_bind_ok (run_attributeSelector h)
  · exact .stop (run_bind_ok run_peek?)

end SelectorReader

/-- The selector of the references to a name, as it is read. -/
theorem Selector.read_references {label : String} (h : '"' ∉ label.toList) :
    read (Pass.references label).toList =
      .ok [.allOf [.kind "TypeName", .attributeIs ["value"] (.equals label)]] := by
  have htext : (Pass.references label).toList = ['T', 'y', 'p', 'e', 'N', 'a', 'm', 'e'] ++
      (['[', 'v', 'a', 'l', 'u', 'e', '='] ++ '"' :: (label.toList ++ ['"', ']'])) := by
    have hparts : (Pass.references label).toList =
        "TypeName[value=\"".toList ++ label.toList ++ "\"]".toList := by
      rw [← String.toList_append, ← String.toList_append]
      rfl
    rw [hparts, show "TypeName[value=\"".toList = ['T', 'y', 'p', 'e', 'N', 'a', 'm', 'e', '[', 'v',
      'a', 'l', 'u', 'e', '=', '"'] from rfl, show "\"]".toList = ['"', ']'] from rfl, append_assoc]
    rfl
  generalize (Pass.references label).toList = characters at htext
  have hblanks : SelectorReader.blanks.run ⟨characters, 0⟩ = .ok ((), ⟨characters, 0⟩) := by
    rw [htext]
    exact SelectorReader.run_blanks (by decide)
  have hcompound : ∀ recur, (SelectorReader.compound recur).run ⟨characters, 0⟩ =
      .ok (.allOf [.kind "TypeName", .attributeIs ["value"] (.equals label)],
        ⟨[], 0 + 8 + 7 + (label.toList.length + 2) + 1⟩) := by
    intro recur
    rw [htext]
    exact SelectorReader.run_compound recur h
  have hlevel : (SelectorReader.level (characters.length + 1)).run ⟨characters, 0⟩ =
      .ok (.allOf [.kind "TypeName", .attributeIs ["value"] (.equals label)],
        ⟨[], 0 + 8 + 7 + (label.toList.length + 2) + 1⟩) :=
    run_bind_ok (hcompound _)
  have hroot : (SelectorReader.root (characters.length + 1)).run ⟨characters, 0⟩ =
      .ok ([.allOf [.kind "TypeName", .attributeIs ["value"] (.equals label)]],
        ⟨[], 0 + 8 + 7 + (label.toList.length + 2) + 1⟩) := by
    refine (run_bind_ok hblanks).trans ?_
    have hall : (SelectorReader.selectors (SelectorReader.level (characters.length + 1))).run
        ⟨characters, 0⟩ = .ok ([.allOf [.kind "TypeName", .attributeIs ["value"] (.equals label)]],
          ⟨[], 0 + 8 + 7 + (label.toList.length + 2) + 1⟩) :=
      run_bind_ok hlevel
    exact run_bind_ok hall
  have hrun : (SelectorReader.root (characters.length + 1)).run' ⟨characters, 0⟩ =
      .ok [.allOf [.kind "TypeName", .attributeIs ["value"] (.equals label)]] := by
    rw [StateT.run'_eq, hroot]
    rfl
  rw [read, hrun]

end DocTypes
