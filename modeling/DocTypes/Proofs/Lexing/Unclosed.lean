import Mathlib.Data.List.Chain
import DocTypes.Text.Lines

/-!
# Texts inside of block comments

A block comment ends at the first end mark, so the text in it is `Unclosed`: no slash stands behind
an asterisk. What stands in such a text is unclosed too, but what is put together from unclosed
texts need not be. A `Harmless` text does not close a comment behind an asterisk either, and
harmless texts can be put together freely.
-/

namespace DocTypes

open List

/-- No slash stands behind an asterisk. -/
def Unclosed (text : List Char) : Prop :=
  text.IsChain fun c d => ¬(c = '*' ∧ d = '/')

instance (text : List Char) : Decidable (Unclosed text) :=
  inferInstanceAs (Decidable (text.IsChain _))

/-- No slash stands behind an asterisk in the text, or would if an asterisk stood before it. -/
def Harmless (text : String) : Prop :=
  Unclosed ('*' :: text.toList)

instance (text : String) : Decidable (Harmless text) :=
  inferInstanceAs (Decidable (Unclosed _))

/-- No end mark stands in an unclosed text. -/
theorem unclosed_iff {text : List Char} : Unclosed text ↔ ¬['*', '/'] <:+: text := by
  rw [Unclosed, isChain_iff_forall_rel_of_append_cons_cons]
  constructor
  · rintro h ⟨before, behind, rfl⟩
    exact h (append_assoc ..) ⟨rfl, rfl⟩
  · rintro h c d before behind rfl ⟨rfl, rfl⟩
    exact h ⟨before, behind, append_assoc ..⟩

/-- A part of an unclosed text is unclosed. -/
theorem Unclosed.part {text part : List Char} (h : Unclosed text) (hpart : part <:+: text) :
    Unclosed part :=
  List.IsChain.infix h hpart

variable {text mark : String}

/-- A harmless text is unclosed. -/
theorem Harmless.unclosed (h : Harmless text) : Unclosed text.toList :=
  List.IsChain.tail h

/-- A text that closes no comment is harmless behind a mark that keeps it from an asterisk. -/
theorem Unclosed.harmless_append (h : Unclosed text.toList) (hmark : Harmless (mark ++ "/")) :
    Harmless (mark ++ text) := by
  rw [Harmless, String.toList_append, ← cons_append, Unclosed, isChain_append] at *
  refine ⟨hmark.1, h, fun c hc d _ hclose => hmark.2.2 c hc '/' rfl ⟨hclose.1, rfl⟩⟩

/-- Harmless texts can be put together. -/
theorem Harmless.append {other : String} (h : Harmless text) (h' : Harmless other) :
    Harmless (text ++ other) := by
  rw [Harmless, String.toList_append, ← cons_append]
  refine isChain_append.2 ⟨h, h'.unclosed, fun c _ d hd hclose => ?_⟩
  exact (isChain_cons.1 h').1 d hd ⟨rfl, hclose.2⟩

/-- Lines that close no comment do not close one together. -/
theorem unclosed_joinLines {lines : List (List Char)} (h : ∀ line ∈ lines, Unclosed line) :
    Unclosed (joinLines lines) := by
  induction lines with
  | nil => exact .nil
  | cons line rest ih =>
    obtain ⟨hline, hrest⟩ := forall_mem_cons.1 h
    cases rest with
    | nil => simpa [joinLines] using hline
    | cons next later =>
      have hlater := ih hrest
      rw [joinLines, intercalate_cons_cons, ← joinLines, append_assoc]
      refine isChain_append.2 ⟨hline, isChain_cons.2 ⟨?_, hlater⟩, ?_⟩
      · rintro d _ ⟨hbreak, -⟩
        cases hbreak
      · rintro c _ d hd ⟨-, rfl⟩
        cases hd

/-- Harmless texts with a harmless sign between them. -/
theorem harmless_intercalate {texts : List String} (hmark : Harmless mark)
    (h : ∀ text ∈ texts, Harmless text) : Harmless (mark.intercalate texts) := by
  induction texts with
  | nil => exact (by decide : Harmless "")
  | cons text rest ih =>
    obtain ⟨htext, hrest⟩ := forall_mem_cons.1 h
    cases rest with
    | nil => simpa using htext
    | cons next later =>
      rw [String.intercalate_cons_cons]
      exact (htext.append hmark).append (ih hrest)

/-- Harmless texts one after the other. -/
theorem harmless_join {texts : List String} (h : ∀ text ∈ texts, Harmless text) :
    Harmless (String.join texts) := by
  induction texts with
  | nil => decide
  | cons text rest ih =>
    rw [String.join_cons]
    exact (h text (.head _)).append (ih fun text htext => h text (.tail _ htext))

/-- A text without slashes is harmless. -/
theorem harmless_of_notMem (h : '/' ∉ text.toList) : Harmless text := by
  refine unclosed_iff.2 fun hmark => h ?_
  rcases infix_cons_iff.1 hmark with ⟨later, heq⟩ | hmark
  · rw [← (List.cons.inj heq).2]
    exact .head _
  · exact hmark.subset (.tail _ (.head _))

end DocTypes
