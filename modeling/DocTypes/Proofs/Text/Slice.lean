import DocTypes.Text.Position
import Mathlib.Data.List.TakeWhile

/-!
# Slices and last lines

How slices of a text fit together, which characters they hold, and what the last line of a text is.
-/

namespace DocTypes

open List

section
variable {α : Type} {text : List α} {a b c : Nat}

/-- Nothing stands between a place and itself. -/
@[simp] theorem slice_self : slice text a a = [] := by
  rw [slice, Nat.sub_self, take_zero]

theorem slice_length : slice text a text.length = text.drop a := by
  exact take_of_length_le (Nat.le_of_eq length_drop)

/-- Two slices that meet are one. -/
theorem slice_append (hab : a ≤ b) (hbc : b ≤ c) :
    slice text a b ++ slice text b c = slice text a c := by
  have hdrop : text.drop b = (text.drop a).drop (b - a) := by
    rw [drop_drop, Nat.add_sub_of_le hab]
  have hlength : c - a = b - a + (c - b) := by omega
  rw [slice, slice, slice, hdrop, hlength, take_add]

/-- The parts of a slice are slices. -/
theorem slice_split {front back : List α} (h : slice text a c = front ++ back) :
    slice text a (a + front.length) = front ∧ slice text (a + front.length) c = back := by
  have hle : front.length ≤ c - a := by
    have hlength := congrArg length h
    rw [slice, length_take, length_append] at hlength
    omega
  have htake := congrArg (take front.length) h
  have hdrop := congrArg (drop front.length) h
  rw [take_left, slice, take_take, Nat.min_eq_left hle] at htake
  rw [drop_left, slice, drop_take, drop_drop] at hdrop
  rw [slice, slice, Nat.add_sub_cancel_left, ← Nat.sub_sub]
  exact ⟨htake, hdrop⟩

end

section
variable {text : List Char} {a b : Nat}

/-- The characters of a span. -/
theorem getElem?_of_text_eq {span : Span} {part : List Char} (h : span.text text = part) {i : Nat}
    (hi : i < part.length) : text[span.start + i]? = part[i]? := by
  subst h
  simp only [Span.text, slice, length_take, length_drop] at hi
  simp only [Span.text, slice, getElem?_take, getElem?_drop]
  rw [if_pos (by omega)]

/-- The character at an offset inside a slice is one of the slice. -/
theorem mem_slice {i : Nat} {d : Char} (h : text[i]? = some d) (ha : a ≤ i) (hi : i < b) :
    d ∈ slice text a b := by
  refine mem_of_getElem? (i := i - a) ?_
  rw [slice, getElem?_take_of_lt (by omega), getElem?_drop, Nat.add_sub_of_le ha, h]

/-- A character of a slice stands at an offset inside it. -/
theorem exists_of_mem_slice {d : Char} (h : d ∈ slice text a b) :
    ∃ i, a ≤ i ∧ i < b ∧ text[i]? = some d := by
  obtain ⟨i, hi⟩ := mem_iff_getElem?.1 h
  have hlt := (List.getElem?_eq_some_iff.1 hi).1
  simp only [slice, length_take] at hlt
  rw [slice, getElem?_take_of_lt (by omega), getElem?_drop] at hi
  exact ⟨a + i, by omega, by omega, hi⟩

end

/-- A text is what comes up to its last line break, and its last line. -/
theorem lastLine_split (text : List Char) : ∃ front line, text = front ++ line ∧
    line.length = lastLineLength text ∧ '\n' ∉ line ∧
      (front = [] ∨ ∃ before, front = before ++ ['\n']) := by
  refine ⟨(text.reverse.dropWhile (· != '\n')).reverse,
    (text.reverse.takeWhile (· != '\n')).reverse,
    ?_, ?_, ?_, ?_⟩
  · rw [← reverse_append, takeWhile_append_dropWhile, reverse_reverse]
  · rw [length_reverse, lastLineLength]
  · intro hmem
    have := mem_takeWhile_imp (mem_reverse.1 hmem)
    simp at this
  · cases hdrop : text.reverse.dropWhile (· != '\n') with
    | nil => exact .inl rfl
    | cons c rest =>
      have hhead := head_dropWhile_not (· != '\n') (by rw [hdrop]; nofun)
      simp only [hdrop, head_cons] at hhead
      rw [show c = '\n' by simpa using hhead, reverse_cons]
      exact .inr ⟨_, rfl⟩

end DocTypes
