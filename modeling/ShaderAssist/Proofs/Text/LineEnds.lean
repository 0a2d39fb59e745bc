import ShaderAssist.Proofs.Text.Lines

/-!
# Lines and what ends them

A text is its lines, each followed by what ends it. The pieces between the line feeds put together with line
feeds are the text (`intercalate_splitLines`), and each piece is the content of the line and the carriage
return that may end it (`dropReturn_append_lineReturn`). So what ends a line is a line feed, which the last
line lacks, with the carriage return directly before it.
-/

namespace ShaderAssist

namespace Document

/-- The lines of a text put together with line feeds are the text. -/
theorem intercalate_splitLines (text : List Char) : ['\n'].intercalate (splitLines text) = text := by
  induction text with
  | nil => rfl
  | cons c text ih =>
    obtain ⟨line, lines, hlines⟩ := List.exists_cons_of_ne_nil (splitLines_ne_nil text)
    by_cases hc : c = '\n'
    · subst hc
      rw [splitLines_feed, hlines, List.intercalate_cons_cons, ← hlines, ih]
      rfl
    · rw [splitLines_cons hc hlines]
      rw [hlines] at ih
      cases lines with
      | nil => rw [List.intercalate_singleton] at ih ⊢; rw [ih]
      | cons line' lines =>
        rw [List.intercalate_cons_cons] at ih ⊢
        rw [← ih]
        rfl

/-- The line feed behind line `l` of `n` lines, which the last one lacks. -/
def lineFeed (n l : Nat) : List Char :=
  if l + 1 < n then ['\n'] else []

/-- Lines put together with line feeds, line by line. -/
theorem intercalate_eq_flatMap (lines : List (List Char)) : ['\n'].intercalate lines =
    (List.range lines.length).flatMap fun l => lines.getD l [] ++ lineFeed lines.length l := by
  induction lines with
  | nil => rfl
  | cons line lines ih =>
    rw [List.length_cons, List.range_succ_eq_map, List.flatMap_cons, List.flatMap_map]
    cases lines with
    | nil => simp [lineFeed]
    | cons line' lines =>
      have hrest : ∀ l, lineFeed ((line' :: lines).length + 1) (l + 1) =
          lineFeed (line' :: lines).length l := by
        intro l
        unfold lineFeed
        simp only [Nat.add_lt_add_iff_right]
      have hfirst : lineFeed ((line' :: lines).length + 1) 0 = ['\n'] := if_pos (by simp)
      rw [List.intercalate_cons_cons, ih, hfirst]
      simp only [List.getD_cons_zero, List.getD_cons_succ, Nat.succ_eq_add_one, hrest]

/-- The carriage return at the end of a line. -/
def lineReturn (line : List Char) : List Char :=
  if line.getLast? = some '\r' then ['\r'] else []

/-- A line is its content and the carriage return at its end. -/
theorem dropReturn_append_lineReturn (line : List Char) : dropReturn line ++ lineReturn line = line := by
  unfold lineReturn
  split
  · next h =>
    obtain ⟨front, rfl⟩ := List.getLast?_eq_some_iff.mp h
    rw [dropReturn_append_of_ne_nil (List.cons_ne_nil _ _), List.append_assoc]
    rfl
  · next h => rw [dropReturn_of_getLast?_ne h, List.append_nil]

/-- **What ends a line:** its line feed, with a carriage return before it if the line has one at its end. -/
def Ends (content feed ending : List Char) : Prop :=
  ending = feed ∧ content.getLast? ≠ some '\r' ∨ ending = '\r' :: feed

theorem ends_lineReturn (line feed : List Char) : Ends (dropReturn line) feed (lineReturn line ++ feed) := by
  unfold lineReturn
  split
  · exact Or.inr rfl
  · next h => exact Or.inl ⟨rfl, by rwa [dropReturn_of_getLast?_ne h]⟩

/-- What ends the line `l` of a document. -/
def ending (d : Document) (l : Nat) : List Char :=
  lineReturn (d.lines.getD l []) ++ lineFeed d.lineCount l

variable {d : Document} {l : Nat} {content : List Char}

theorem isSome_lineAt_iff : (d.lineAt l).isSome ↔ l < d.lineCount := by
  simp [lineAt, lineCount]

/-- A content is that of a piece, and stands where the line starts. -/
theorem lineAt_eq_some (h : d.lineAt l = some content) :
    content = dropReturn (d.lines.getD l []) ∧ '\n' ∉ content ∧
      d.textBetween (d.lineStart l) (d.lineStart l + byteLength content) = some content := by
  obtain ⟨line, hline, rfl⟩ := Option.map_eq_some_iff.mp h
  obtain ⟨front, rest, hisLine⟩ := getElem?_splitLines_iff.mp hline
  have hsplit := dropReturn_append_lineReturn line
  refine ⟨by rw [List.getD_eq_getElem?_getD, hline]; rfl, fun hmem => hisLine.feedless ?_, ?_⟩
  · rw [← hsplit]
    exact List.mem_append_left _ hmem
  · have hrest : d.RestAt (d.lineStart l) (dropReturn line ++ (lineReturn line ++ rest)) := by
      refine ⟨front, ?_, hisLine.take_splitLines.2.symm⟩
      rw [← List.append_assoc (dropReturn line), hsplit, ← hisLine.text_eq]
    exact hrest.textBetween

/-- A content with what ends its line is a piece with its line feed. -/
theorem lineAt_append_ending (h : l < d.lineCount) :
    (d.lineAt l).getD [] ++ d.ending l = d.lines.getD l [] ++ lineFeed d.lineCount l := by
  obtain ⟨content, hcontent⟩ := Option.isSome_iff_exists.mp (isSome_lineAt_iff.mpr h)
  unfold ending
  rw [hcontent, Option.getD_some, (lineAt_eq_some hcontent).1, ← List.append_assoc,
    dropReturn_append_lineReturn]

/-- The text is the contents of its lines, each with what ends it. -/
theorem text_eq_flatMap (d : Document) :
    d.text = (List.range d.lineCount).flatMap fun l => (d.lineAt l).getD [] ++ d.ending l :=
  calc d.text = ['\n'].intercalate d.lines := (intercalate_splitLines d.text).symm
    _ = (List.range d.lineCount).flatMap fun l => d.lines.getD l [] ++ lineFeed d.lineCount l :=
      intercalate_eq_flatMap d.lines
    _ = (List.range d.lineCount).flatMap fun l => (d.lineAt l).getD [] ++ d.ending l :=
      List.flatMap_congr fun _ hl => (lineAt_append_ending (List.mem_range.mp hl)).symm

theorem ends_ending (h : d.lineAt l = some content) :
    Ends content (lineFeed d.lineCount l) (d.ending l) := by
  obtain ⟨rfl, -⟩ := lineAt_eq_some h
  exact ends_lineReturn _ _

/-- **The lines of a document.** There is one more of them than line feeds. Their contents hold no line feed,
stand where the lines start, and make up the text, each followed by what ends it: a line feed, or nothing
behind the last one, and before that the carriage return, if there is one, which is then no part of the
content. -/
theorem lines_make_up_text (d : Document) : d.lineCount = d.text.count '\n' + 1 ∧
    (∀ l, (d.lineAt l).isSome ↔ l < d.lineCount) ∧
    (∀ l content, d.lineAt l = some content → '\n' ∉ content ∧
      d.textBetween (d.lineStart l) (d.lineStart l + byteLength content) = some content) ∧
    ∃ ending : Nat → List Char,
      d.text = ((List.range d.lineCount).flatMap fun l => (d.lineAt l).getD [] ++ ending l) ∧
      ∀ l content, d.lineAt l = some content →
        (l + 1 < d.lineCount → Ends content ['\n'] (ending l)) ∧
        (l + 1 = d.lineCount → Ends content [] (ending l)) := by
  refine ⟨length_splitLines d.text, fun l => isSome_lineAt_iff, fun l content h => (lineAt_eq_some h).2,
    d.ending, text_eq_flatMap d, fun l content h => ?_⟩
  have hends := ends_ending h
  refine ⟨fun hl => ?_, fun hl => ?_⟩
  · have hfeed : lineFeed d.lineCount l = ['\n'] := if_pos hl
    rwa [hfeed] at hends
  · have hfeed : lineFeed d.lineCount l = [] := if_neg (by omega)
    rwa [hfeed] at hends

/-- Of two carriage returns before a line feed the first one belongs to the content. -/
example : (ofList ['a', '\r', '\r', '\n', '\r']).lineAt 0 = some ['a', '\r'] ∧
    (ofList ['a', '\r', '\r', '\n', '\r']).lineAt 1 = some [] := by
  decide

end Document

end ShaderAssist
