import Mathlib.Data.List.Basic
import Mathlib.Data.List.Induction
import ShaderAssist.Proofs.Text.Passing

/-!
# Lines of a text

The pieces that `splitLines` makes of a text are its lines: line `i` stands behind a part that holds `i` line
feeds and is empty or ends with one, and before the next line feed or the end of the text
(`getElem?_splitLines_iff`). A carriage return at the end of a line does not belong to its content, so a part
of the line that ends with it is longer than the content (`take_dropReturn`).
-/

namespace ShaderAssist

namespace Document

/-! ### Pieces between line feeds -/

/-- What stands before a line: nothing, or a text that ends with a line feed. -/
def StartsLine (front : List Char) : Prop :=
  front = [] ∨ ∃ f, front = f ++ ['\n']

theorem splitLines_ne_nil (text : List Char) : splitLines text ≠ [] := by
  cases text with
  | nil => exact List.cons_ne_nil _ _
  | cons c text =>
    rw [splitLines]
    split_ifs
    · exact List.cons_ne_nil _ _
    · split <;> exact List.cons_ne_nil _ _

theorem splitLines_feed (text : List Char) : splitLines ('\n' :: text) = [] :: splitLines text := by
  rw [splitLines, if_pos rfl]

theorem splitLines_cons {c : Char} (hc : c ≠ '\n') {text line : List Char} {lines : List (List Char)}
    (h : splitLines text = line :: lines) : splitLines (c :: text) = (c :: line) :: lines := by
  rw [splitLines, if_neg hc, h]

/-- A line feed cuts the lines. -/
theorem splitLines_append_feed (front rest : List Char) :
    splitLines (front ++ '\n' :: rest) = splitLines front ++ splitLines rest := by
  induction front with
  | nil => exact splitLines_feed rest
  | cons c front ih =>
    by_cases hc : c = '\n'
    · subst hc
      rw [List.cons_append, splitLines_feed, splitLines_feed, ih, List.cons_append]
    · obtain ⟨line, lines, hlines⟩ := List.exists_cons_of_ne_nil (splitLines_ne_nil front)
      rw [hlines, List.cons_append] at ih
      rw [List.cons_append, splitLines_cons hc ih, splitLines_cons hc hlines, List.cons_append]

theorem splitLines_of_not_mem {line : List Char} (h : '\n' ∉ line) : splitLines line = [line] := by
  induction line with
  | nil => rfl
  | cons c line ih =>
    rw [List.mem_cons, not_or] at h
    exact splitLines_cons (Ne.symm h.1) (ih h.2)

/-- The first line ends at the first line feed. -/
theorem head?_splitLines {line rest : List Char} (h : '\n' ∉ line) (hrest : AtLineEnd rest) :
    (splitLines (line ++ rest)).head? = some line := by
  rcases hrest with rfl | ⟨rest, rfl⟩
  · rw [List.append_nil, splitLines_of_not_mem h]
    rfl
  · rw [splitLines_append_feed, splitLines_of_not_mem h]
    rfl

theorem length_splitLines (text : List Char) : (splitLines text).length = text.count '\n' + 1 := by
  induction text with
  | nil => rfl
  | cons c text ih =>
    by_cases hc : c = '\n'
    · subst hc
      rw [splitLines_feed, List.length_cons, ih, List.count_cons_self]
    · obtain ⟨line, lines, hlines⟩ := List.exists_cons_of_ne_nil (splitLines_ne_nil text)
      rw [hlines] at ih
      rw [splitLines_cons hc hlines, List.count_cons_of_ne hc, ← ih, List.length_cons, List.length_cons]

/-- The lines with a byte for the end of each of them. -/
theorem byteLength_splitLines (text : List Char) :
    (splitLines text).foldr (fun line n => byteLength line + 1 + n) 0 = byteLength text + 1 := by
  induction text with
  | nil => rfl
  | cons c text ih =>
    by_cases hc : c = '\n'
    · subst hc
      rw [splitLines_feed, List.foldr_cons, ih, byteLength_nil, byteLength_cons]
      have hfeed : '\n'.utf8Size = 1 := rfl
      omega
    · obtain ⟨line, lines, hlines⟩ := List.exists_cons_of_ne_nil (splitLines_ne_nil text)
      rw [hlines, List.foldr_cons] at ih
      rw [splitLines_cons hc hlines, List.foldr_cons, byteLength_cons, byteLength_cons]
      omega

/-! ### Where a line stands -/

/-- The line `i` of a text stands between `front` and `rest`. -/
structure IsLine (text : List Char) (i : Nat) (front line rest : List Char) : Prop where
  text_eq : text = front ++ (line ++ rest)
  starts : StartsLine front
  count : front.count '\n' = i
  feedless : '\n' ∉ line
  ends : AtLineEnd rest

variable {text front line rest : List Char} {i : Nat}

theorem IsLine.take_splitLines (h : IsLine text i front line rest) :
    (splitLines text)[i]? = some line ∧
      ((splitLines text).take i).foldr (fun line n => byteLength line + 1 + n) 0 = byteLength front := by
  have hhead := head?_splitLines h.feedless h.ends
  obtain rfl := h.text_eq
  obtain rfl := h.count
  rcases h.starts with rfl | ⟨f, rfl⟩
  · rw [List.nil_append, List.count_nil, ← List.head?_eq_getElem?, List.take_zero]
    exact ⟨hhead, rfl⟩
  · have hcount : (f ++ ['\n']).count '\n' = (splitLines f).length := by
      rw [List.count_append, length_splitLines]
      rfl
    rw [List.append_assoc, List.singleton_append, splitLines_append_feed, hcount,
      List.getElem?_append_right (Nat.le_refl _), Nat.sub_self, ← List.head?_eq_getElem?,
      List.take_left, byteLength_splitLines, byteLength_append]
    exact ⟨hhead, rfl⟩

/-- A text starts with a part of a line, up to the end of the line. -/
theorem exists_lineEnd : ∀ text : List Char,
    ∃ line rest, text = line ++ rest ∧ '\n' ∉ line ∧ AtLineEnd rest
  | [] => ⟨[], [], rfl, List.not_mem_nil, Or.inl rfl⟩
  | c :: text => by
    by_cases hc : c = '\n'
    · exact ⟨[], c :: text, rfl, List.not_mem_nil, Or.inr ⟨text, by rw [hc]⟩⟩
    · obtain ⟨line, rest, rfl, hline, hrest⟩ := exists_lineEnd text
      exact ⟨c :: line, rest, rfl, by simp [hline, Ne.symm hc], hrest⟩

/-- A text ends with a part of a line, from the start of the line on. -/
theorem exists_lineStart (text : List Char) :
    ∃ front line, text = front ++ line ∧ StartsLine front ∧ '\n' ∉ line := by
  induction text using List.reverseRecOn with
  | nil => exact ⟨[], [], rfl, Or.inl rfl, List.not_mem_nil⟩
  | append_singleton text c ih =>
    by_cases hc : c = '\n'
    · exact ⟨text ++ [c], [], (List.append_nil _).symm, Or.inr ⟨text, by rw [hc]⟩, List.not_mem_nil⟩
    · obtain ⟨front, line, rfl, hfront, hline⟩ := ih
      exact ⟨front, line ++ [c], List.append_assoc .., hfront, by simp [hline, Ne.symm hc]⟩

/-- There is a line for every number of line feeds up to all of them. -/
theorem exists_startsLine : ∀ {text : List Char} {i : Nat}, i ≤ text.count '\n' →
    ∃ front rest, text = front ++ rest ∧ StartsLine front ∧ front.count '\n' = i
  | text, 0, _ => ⟨[], text, rfl, Or.inl rfl, rfl⟩
  | [], i + 1, h => by simp at h
  | c :: text, i + 1, h => by
    by_cases hc : c = '\n'
    · subst hc
      rw [List.count_cons_self] at h
      obtain ⟨front, rest, rfl, hfront, hcount⟩ := exists_startsLine (Nat.le_of_succ_le_succ h)
      refine ⟨'\n' :: front, rest, rfl, Or.inr ?_, by rw [List.count_cons_self, hcount]⟩
      rcases hfront with rfl | ⟨f, rfl⟩
      · exact ⟨[], rfl⟩
      · exact ⟨'\n' :: f, rfl⟩
    · rw [List.count_cons_of_ne hc] at h
      obtain ⟨front, rest, rfl, hfront, hcount⟩ := exists_startsLine h
      refine ⟨c :: front, rest, rfl, Or.inr ?_, by rw [List.count_cons_of_ne hc, hcount]⟩
      rcases hfront with rfl | ⟨f, rfl⟩
      · simp at hcount
      · exact ⟨c :: f, rfl⟩

/-- **The lines of a text.** -/
theorem getElem?_splitLines_iff :
    (splitLines text)[i]? = some line ↔ ∃ front rest, IsLine text i front line rest := by
  constructor
  · intro h
    have hi := (List.getElem?_eq_some_iff.mp h).1
    rw [length_splitLines] at hi
    obtain ⟨front, s, hs, hfront, hcount⟩ := exists_startsLine (Nat.le_of_lt_succ hi)
    obtain ⟨line', rest, rfl, hline, hrest⟩ := exists_lineEnd s
    have hisLine : IsLine text i front line' rest := ⟨hs, hfront, hcount, hline, hrest⟩
    obtain rfl := Option.some.inj (h.symm.trans hisLine.take_splitLines.1)
    exact ⟨front, rest, hisLine⟩
  · rintro ⟨front, rest, h⟩
    exact h.take_splitLines.1

/-! ### The end of a line -/

theorem dropReturn_append_of_ne_nil {b : List Char} (hb : b ≠ []) :
    ∀ a : List Char, dropReturn (a ++ b) = a ++ dropReturn b
  | [] => rfl
  | c :: a => by
    have hne : a ++ b ≠ [] := by simp [hb]
    rw [List.cons_append, dropReturn.eq_3 _ _ (fun _ h => hne h), dropReturn_append_of_ne_nil hb a,
      List.cons_append]

theorem dropReturn_of_getLast?_ne {line : List Char} (h : line.getLast? ≠ some '\r') :
    dropReturn line = line := by
  rcases List.eq_nil_or_concat' line with rfl | ⟨line, c, rfl⟩
  · rfl
  · rw [List.getLast?_concat] at h
    have hc : c ≠ '\r' := fun hc => h (by rw [hc])
    rw [dropReturn_append_of_ne_nil (List.cons_ne_nil _ _), dropReturn.eq_3 _ _ (fun h _ => hc h)]
    rfl

/-- **A part of a line is a part of its content** unless it ends with the carriage return at the end of the
line. -/
theorem take_dropReturn (a b : List Char) :
    (a.getLast? = some '\r' ∧ b = [] → (dropReturn (a ++ b)).length < a.length) ∧
      (¬ (a.getLast? = some '\r' ∧ b = []) →
        a.length ≤ (dropReturn (a ++ b)).length ∧ (dropReturn (a ++ b)).take a.length = a) := by
  constructor
  · rintro ⟨ha, rfl⟩
    obtain ⟨a, rfl⟩ := List.getLast?_eq_some_iff.mp ha
    rw [List.append_nil, dropReturn_append_of_ne_nil (List.cons_ne_nil _ _), List.length_append,
      List.length_append]
    exact Nat.lt_succ_self _
  · intro h
    rcases eq_or_ne b [] with rfl | hb
    · have ha : a.getLast? ≠ some '\r' := fun ha => h ⟨ha, rfl⟩
      rw [List.append_nil, dropReturn_of_getLast?_ne ha]
      exact ⟨Nat.le_refl _, List.take_length⟩
    · rw [dropReturn_append_of_ne_nil hb, List.length_append]
      exact ⟨Nat.le_add_right _ _, List.take_left⟩

end Document

end ShaderAssist
